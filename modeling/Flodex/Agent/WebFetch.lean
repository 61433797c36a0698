import Flodex.Agent.Loop
import Flodex.Foundations.Checked
import Flodex.Foundations.Utf8

/-!
# The hosts that `web_fetch` contacts

`WebFetchTool::execute` compares the host of its URL, as a text, with four spellings of the loopback
host, and follows redirects without another look. `no_loopback_iff` says when no loopback host is
contacted: when the URL, if it passes, does not name one in a spelling that the guard lacks
(`Unlisted`), as every IPv6 host is, since it is written in brackets, and no redirect leads to one.

`page_shown` says what the model gets of a page of text. The URL parser is a parameter; a `Url` is
what it promises of its results.
-/

namespace Flodex.WebFetch

open Text

/-! ## Hosts and URLs -/

/-- The host of a URL. -/
inductive Host
  | domain (name : String)
  | ipv4 (addr : Bytes 4)
  | ipv6 (addr : Bytes 16)
  deriving DecidableEq

/-- The schemes of the web. -/
def Web (scheme : String) : Prop := scheme = "http" ∨ scheme = "https"

instance (scheme : String) : Decidable (Web scheme) := inferInstanceAs (Decidable (_ ∨ _))

/-- A parsed URL. Under the schemes of the web a name is in lower case. -/
structure Url where
  scheme : String
  host : Option Host
  lower : Web scheme → ∀ name, host = some (.domain name) →
    name.toList.map Char.toLower = name.toList

/-- The parser, and the text that it has for an IPv6 address. -/
structure UrlCrate where
  parse : String → Except String Url
  ipv6Text : Bytes 16 → String

structure Response where
  status : UInt16
  contentType : Option String
  body : Except String (List UInt8)

/-- What a request is answered with: redirects, in order, and then a response or an error. One to
another scheme is an error of the client. -/
structure Answer where
  redirects : List Url
  web : ∀ url ∈ redirects, Web url.scheme
  last : Except String Response

/-! ## The tool -/

def maxBytes : ℕ := 100000

/-- The limit of the redirect policy. -/
def maxRedirects : ℕ := 5

variable (crate : UrlCrate) (answer : Answer) (input : Value)

/-- `host_str`: the text of a host. -/
def hostStr : Host → String
  | .domain name => name
  | .ipv4 addr => ".".intercalate (addr.toList.map fun b => b.toNat.repr)
  | .ipv6 addr => "[" ++ crate.ipv6Text addr ++ "]"

def isLoopbackHost (host : String) : Bool :=
  host = "localhost" ∨ host = "127.0.0.1" ∨ host = "::1" ∨ host = "0.0.0.0"

/-- The URL of the input, if it passes the checks. -/
def checkedUrl : Except String Url := do
  let urlStr ← orThrow (input.getStr "url") "web_fetch: `url` must be a string"
  let parsed ← (crate.parse urlStr).mapError fun e => s!"invalid URL: {e}"
  require (Web parsed.scheme) s!"scheme `{parsed.scheme}` not allowed; use http or https"
  let host ← orThrow parsed.host "URL has no host"
  require (isLoopbackHost (hostStr crate host) = false) "loopback hosts not allowed"
  pure parsed

/-- The URLs that the client requests, and what it gets in the end. -/
def send (url : Url) : List Url × Except String Response :=
  (url :: answer.redirects.take maxRedirects,
    if answer.redirects.length ≤ maxRedirects then answer.last else .error "too many redirects")

/-- What is shown before the body. -/
def Response.head (res : Response) : String :=
  let contentType := res.contentType.getD "unknown"
  s!"HTTP {res.status.toNat} ({contentType})\n\n"

/-- The text of a response. -/
def render (res : Response) : Except String String := do
  let bytes ← res.body.mapError fun e => s!"read body: {e}"
  let text := String.ofList (fromUtf8Lossy (bytes.take maxBytes))
  let out := res.head ++ text
  pure (if maxBytes < bytes.length then
    out ++ s!"\n\n[truncated at {maxBytes} bytes of {bytes.length}]" else out)

/-- `WebFetchTool::execute`, with the hosts that it contacts. -/
def execute : List Host × Except String String :=
  match checkedUrl crate input with
  | .error e => ([], .error e)
  | .ok url =>
    ((send answer url).1.filterMap Url.host,
      ((send answer url).2.mapError fun e => s!"request failed: {e}").bind render)

def webFetchDef : ToolDef where
  name := "web_fetch"
  description := "Fetches text content from an http:// or https:// URL. " ++
    "Returns the response body as text, truncated to ~100KB. " ++
    "Use for reading web pages, REST APIs, and documentation. " ++
    "The node owns the outbound connection — the client never sees the target host."
  inputSchema := .object [
    ("additionalProperties", .bool false),
    ("properties", .object [("url", .object [
      ("description", .string "Absolute http:// or https:// URL to fetch."),
      ("type", .string "string")])]),
    ("required", .array [.string "url"]),
    ("type", .string "object")]

/-- The tool, in a world that answers requests and takes note of the hosts. -/
def webFetchTool {W : Type*} (answer : W → Answer) (contact : W → List Host → W) : Tool W :=
  .node webFetchDef fun w input =>
    ((execute crate (answer w) input).2, contact w (execute crate (answer w) input).1)

/-! ## Loopback hosts -/

/-- An address of 127.0.0.0/8. -/
def Loop4 (addr : List UInt8) : Prop := addr.head? = some 127

/-- `::1`, and the addresses of 127.0.0.0/8 as IPv6 addresses. -/
def Loop6 (addr : Bytes 16) : Prop :=
  addr.toList = List.replicate 15 0 ++ [1] ∨
    ∃ l, Loop4 l ∧ addr.toList = List.replicate 10 0 ++ [255, 255] ++ l

/-- A loopback host, or the host of no address. -/
def Loopback : Host → Prop
  | .domain name => name.toList.map Char.toLower = "localhost".toList ∨
    name.toList.map Char.toLower = "localhost.".toList
  | .ipv4 addr => Loop4 addr.toList ∨ addr = .replicate 4 0
  | .ipv6 addr => Loop6 addr ∨ addr = .replicate 16 0

/-- The loopback hosts that are not on the list of the guard. -/
def Unlisted : Host → Prop
  | .domain name => name = "localhost."
  | .ipv4 addr => Loop4 addr.toList ∧ addr.toList ≠ [127, 0, 0, 1]
  | .ipv6 addr => Loop6 addr ∨ addr = .replicate 16 0

variable {crate answer input} {host : Host} {url : Url}

theorem loopback_of_unlisted (h : Unlisted host) : Loopback host := by
  cases host with
  | domain name =>
    obtain rfl : name = "localhost." := h
    exact .inr (by decide)
  | ipv4 addr => exact .inl h.1
  | ipv6 addr => exact h

/-- **The arm for IPv6 never matches**: the text of an IPv6 host starts with a bracket. -/
theorem isLoopbackHost_ipv6 (addr : Bytes 16) :
    isLoopbackHost (hostStr crate (.ipv6 addr)) = false := by
  have hne : ∀ s : String, s.toList.head? ≠ some '[' → hostStr crate (.ipv6 addr) ≠ s := by
    rintro _ hs rfl
    exact hs (by simp [hostStr])
  rw [isLoopbackHost, decide_eq_false_iff_not]
  rintro (h | h | h | h)
  · exact hne _ (by decide) h
  · exact hne _ (by decide) h
  · exact hne _ (by decide) h
  · exact hne _ (by decide) h

/-- A loopback host that passes the guard is not on its list. -/
theorem unlisted_of_passes (hlower : ∀ name, host = .domain name →
      name.toList.map Char.toLower = name.toList)
    (hpass : isLoopbackHost (hostStr crate host) = false) (h : Loopback host) : Unlisted host := by
  rw [isLoopbackHost, decide_eq_false_iff_not, not_or, not_or, not_or] at hpass
  obtain ⟨hlocalhost, hloop, -, hzero⟩ := hpass
  cases host with
  | domain name =>
    rw [Loopback, hlower name rfl] at h
    rcases h with h | h
    · exact absurd (String.toList_inj.1 h) hlocalhost
    · exact String.toList_inj.1 h
  | ipv4 addr =>
    rcases h with h | rfl
    · refine ⟨h, fun haddr => hloop ?_⟩
      rw [hostStr, haddr]
      decide
    · refine absurd ?_ hzero
      rw [hostStr]
      decide
  | ipv6 addr => exact h

/-! ## What is contacted -/

/-- The input is a URL of the web whose host passes the guard. -/
def Passes (crate : UrlCrate) (input : Value) (url : Url) : Prop :=
  ∃ urlStr host, input.getStr "url" = some urlStr ∧ crate.parse urlStr = .ok url ∧
    Web url.scheme ∧ url.host = some host ∧ isLoopbackHost (hostStr crate host) = false

theorem checkedUrl_eq_ok : checkedUrl crate input = .ok url ↔ Passes crate input url := by
  simp only [checkedUrl, Passes, bind_eq_ok, orThrow_eq_ok, mapError_eq_ok, require_eq_ok,
    pure_eq_ok]
  constructor
  · rintro ⟨urlStr, hstr, parsed, hparse, _, hscheme, host, hhost, _, hguard, rfl⟩
    exact ⟨urlStr, host, hstr, hparse, hscheme, hhost, hguard⟩
  · rintro ⟨urlStr, host, hstr, hparse, hscheme, hhost, hguard⟩
    exact ⟨urlStr, hstr, url, hparse, (), hscheme, host, hhost, (), hguard, rfl⟩

/-- The hosts that are contacted: that of the URL, if it passes, and those of the redirects. -/
theorem mem_contacted : host ∈ (execute crate answer input).1 ↔ ∃ url, Passes crate input url ∧
    (url.host = some host ∨ ∃ target ∈ answer.redirects.take maxRedirects,
      target.host = some host) := by
  cases hchecked : checkedUrl crate input with
  | error e =>
    simp only [execute, hchecked, List.not_mem_nil, false_iff, not_exists, not_and]
    intro url hpasses
    rw [checkedUrl_eq_ok.2 hpasses] at hchecked
    cases hchecked
  | ok url =>
    simp only [execute, hchecked, send, List.mem_filterMap, List.mem_cons, exists_eq_or_imp]
    constructor
    · intro h
      exact ⟨url, checkedUrl_eq_ok.1 hchecked, h⟩
    · rintro ⟨url', hpasses, h⟩
      obtain rfl := Except.ok.inj (hchecked.symm.trans (checkedUrl_eq_ok.2 hpasses))
      exact h

/-- A URL that passes names a loopback host exactly when that is not on the list. -/
theorem Passes.loopback_iff (h : Passes crate input url) (hhost : url.host = some host) :
    Loopback host ↔ Unlisted host := by
  obtain ⟨urlStr, host', -, -, hscheme, hhost', hguard⟩ := h
  obtain rfl := Option.some.inj (hhost.symm.trans hhost')
  refine ⟨unlisted_of_passes (fun name hname => ?_) hguard, loopback_of_unlisted⟩
  exact url.lower hscheme name (hname ▸ hhost)

/-- **No loopback host is contacted** if and only if the URL, where it passes the guard, names none
that the guard does not list, and none of the redirects that are followed leads to one. -/
theorem no_loopback_iff (crate : UrlCrate) (answer : Answer) (input : Value) :
    (∀ host ∈ (execute crate answer input).1, ¬ Loopback host) ↔
      ∀ url, Passes crate input url → (∀ host ∈ url.host, ¬ Unlisted host) ∧
        ∀ target ∈ answer.redirects.take maxRedirects, ∀ host ∈ target.host, ¬ Loopback host := by
  constructor
  · intro h url hpasses
    refine ⟨fun host hhost hun => ?_, fun target htarget host hhost => ?_⟩
    · exact h host (mem_contacted.2 ⟨url, hpasses, .inl hhost⟩) (loopback_of_unlisted hun)
    · exact h host (mem_contacted.2 ⟨url, hpasses, .inr ⟨target, htarget, hhost⟩⟩)
  · intro h host hmem hloop
    obtain ⟨url, hpasses, hhost | ⟨target, htarget, hhost⟩⟩ := mem_contacted.1 hmem
    · exact (h url hpasses).1 host hhost ((hpasses.loopback_iff hhost).1 hloop)
    · exact (h url hpasses).2 target htarget host hhost hloop

/-! ## A fetch of the node itself -/

/-- `http://[::1]:8545/`. -/
def loop6Url : Url where
  scheme := "http"
  host := some (.ipv6 ⟨List.replicate 15 0 ++ [1], by decide⟩)
  lower _ name h := by cases h

/-- `http://127.0.0.1:8545/`. -/
def loop4Url : Url where
  scheme := "http"
  host := some (.ipv4 ⟨[127, 0, 0, 1], rfl⟩)
  lower _ name h := by cases h

def exampleUrl : Url where
  scheme := "http"
  host := some (.domain "example.com")
  lower _ name h := by
    cases h
    decide

/-- The parser, on three URLs. -/
def threeUrls : UrlCrate where
  parse s :=
    if s = "http://[::1]:8545/" then .ok loop6Url
    else if s = "http://127.0.0.1:8545/" then .ok loop4Url
    else if s = "http://example.com/" then .ok exampleUrl
    else .error "relative URL without a base"
  ipv6Text _ := "::1"

def urlInput (url : String) : Value := .object [("url", .string url)]

/-- Redirects to a server that does not answer. -/
def unanswered (redirects : List Url) (web : ∀ url ∈ redirects, Web url.scheme) : Answer :=
  ⟨redirects, web, .error "operation timed out"⟩

/-- **The node fetches from itself**: from a URL with an IPv6 address, and, though not from one with
the same IPv4 address, by a redirect to that. -/
theorem loopback_contacted :
    (∃ host ∈ (execute threeUrls (unanswered [] (by simp)) (urlInput "http://[::1]:8545/")).1,
      Loopback host) ∧
    (execute threeUrls (unanswered [] (by simp)) (urlInput "http://127.0.0.1:8545/")).1 = [] ∧
    ∃ host ∈ (execute threeUrls (unanswered [loop4Url] (by simp [loop4Url, Web]))
        (urlInput "http://example.com/")).1, Loopback host := by
  refine ⟨⟨_, mem_contacted.2 ⟨loop6Url, ?_, .inl rfl⟩, .inl (.inl rfl)⟩, rfl,
    _, mem_contacted.2 ⟨exampleUrl, ?_, .inr ⟨loop4Url, .head _, rfl⟩⟩, .inl rfl⟩
  · exact ⟨_, _, rfl, rfl, .inl rfl, rfl, isLoopbackHost_ipv6 _⟩
  · exact ⟨_, _, rfl, rfl, .inl rfl, rfl, rfl⟩

/-! ## What is shown -/

/-- How a text ends that is cut off before `rest`, with `shown` before the cut. -/
def ending (shown rest : List Char) : String :=
  if rest = [] then ""
  else (if (utf8 shown).length < maxBytes then .ofList [replacement] else "") ++
    s!"\n\n[truncated at {maxBytes} bytes of {(utf8 (shown ++ rest)).length}]"

theorem render_text {res : Response} {text : List Char} (hbody : res.body = .ok (utf8 text)) :
    ∃ shown rest, Cut text maxBytes shown rest ∧
      render res = .ok (res.head ++ String.ofList shown ++ ending shown rest) := by
  obtain ⟨shown, rest, cut, hdecode⟩ := fromUtf8Lossy_take text maxBytes
  refine ⟨shown, rest, cut, ?_⟩
  simp only [render, hbody, bind_eq_ok, mapError_eq_ok, pure_eq_ok]
  refine ⟨_, rfl, ?_⟩
  have hfits := cut.rest_eq_nil_iff
  rw [hdecode, ending, ← cut.eq]
  by_cases hrest : rest = []
  · have hshort := Nat.not_lt.2 (hfits.1 hrest)
    simp [hrest, hshort]
  · have hlong := Nat.not_le.1 (mt hfits.2 hrest)
    by_cases hcut : (utf8 shown).length < maxBytes
    · simp only [hrest, hlong, hcut, ne_eq, not_false_eq_true, and_self, if_true, if_false,
        String.ofList_append, String.append_assoc]
    · simp [hrest, hlong, hcut]

/-- **What the model gets of a page of text**: what precedes it, and the page, whole if it fits into
the limit of bytes, and otherwise as many of its characters as fit, with a replacement for one that
is cut, and a note. -/
theorem page_shown {W : Type*} {agent : AgentLoop W} {answer : W → Answer}
    {contact : W → List Host → W}
    (hfind : agent.find "web_fetch" = some (webFetchTool crate answer contact)) (w : W)
    (hpasses : Passes crate input url) (hfollowed : (answer w).redirects.length ≤ maxRedirects)
    {res : Response} (hlast : (answer w).last = .ok res) {text : List Char}
    (hbody : res.body = .ok (utf8 text)) (id : String) :
    ∃ shown rest, Cut text maxBytes shown rest ∧
      agent.runTool w ⟨id, "web_fetch", input⟩ =
        (toolResultBlock id (res.head ++ String.ofList shown ++ ending shown rest) false,
          contact w (execute crate (answer w) input).1) := by
  obtain ⟨shown, rest, cut, hrender⟩ := render_text hbody
  refine ⟨shown, rest, cut, ?_⟩
  have hexecute : (execute crate (answer w) input).2 =
      .ok (res.head ++ String.ofList shown ++ ending shown rest) := by
    simp only [execute, checkedUrl_eq_ok.2 hpasses, send, if_pos hfollowed, hlast]
    exact hrender
  simp only [AgentLoop.runTool, hfind, webFetchTool, hexecute]

/-- A page of 120000 bytes. -/
def longPage : List Char := .replicate 60000 'é'

/-- An agent with the tool, in a world of one page that keeps the hosts that are contacted. -/
def fetcher : AgentLoop (List Host) where
  provider w _ := (.error "unreachable", w)
  maxTokens := 16000
  systemPrompt := ""
  registry := [webFetchTool threeUrls
    (fun _ => ⟨[], by simp, .ok ⟨200, some "text/html", .ok (utf8 longPage)⟩⟩) (· ++ ·)]

/-- The page is cut off. -/
theorem page_shown_cut : ∃ shown rest, Cut longPage maxBytes shown rest ∧ rest ≠ [] ∧
    fetcher.runTool [] ⟨"toolu_1", "web_fetch", urlInput "http://example.com/"⟩ =
      (toolResultBlock "toolu_1"
        ("HTTP 200 (text/html)\n\n" ++ String.ofList shown ++ ending shown rest) false,
        [.domain "example.com"]) := by
  have hpasses : Passes threeUrls (urlInput "http://example.com/") exampleUrl :=
    ⟨_, _, rfl, rfl, .inl rfl, rfl, rfl⟩
  have hfind : fetcher.find "web_fetch" = some _ := rfl
  obtain ⟨shown, rest, cut, hrun⟩ := page_shown hfind [] hpasses (Nat.zero_le _) rfl rfl "toolu_1"
  refine ⟨shown, rest, cut, fun hrest => ?_, hrun⟩
  have hfits := cut.rest_eq_nil_iff.1 hrest
  have hbytes : (String.utf8EncodeChar 'é').length = 2 := by decide
  rw [longPage, utf8, List.length_flatMap, List.map_replicate, List.sum_replicate, hbytes] at hfits
  exact absurd hfits (by decide)

end Flodex.WebFetch
