import Flodex.Coordinator.Server
import Flodex.Foundations.Run

/-!
# Messages that reach the coordinator again

The coordinator among the owners of keys, who sign messages, and anybody else, who can send any
message of which the owner of its key signed the bytes, as often as he likes. The registry keeps
no nonce and no time of a message, so a registration that was once accepted is accepted again
(`accepted_again`), also by a coordinator that has dropped or replaced it.

`entry_spec` says where an entry comes from: its time is that of the last message accepted for its
identity, and its registration is the last one accepted. An entry is therefore `Fresh` in a run
exactly when no delivery in it is a replay.
-/

namespace Flodex.Coordinator

open Text Function

/-! ## The messages -/

/-- What nodes send about themselves. -/
inductive Message
  | register (reg : NodeRegistration)
  | heartbeat (hb : NodeHeartbeat)
  deriving DecidableEq, Repr

namespace Message

/-- The identity that a message is about. -/
def identity : Message → String
  | register reg => reg.identityPubkey
  | heartbeat hb => hb.identityPubkey

def signature : Message → String
  | register reg => reg.signature
  | heartbeat hb => hb.signature

/-- The bytes that its signature is for. -/
def canonical : Message → List UInt8
  | register reg => canonicalRegisterBytes reg
  | heartbeat hb => canonicalHeartbeatBytes hb

/-- The key, and the bytes that its owner signed. -/
def signedAs (m : Message) : List UInt8 × List UInt8 :=
  ((hexDecode (utf8 m.identity.toList)).toOption.getD [], m.canonical)

end Message

variable (crypto : IdentityCrypto) (s : State)

/-- The handler of a message. -/
def receive (now : ℕ) : Message → Except Rejection State
  | .register reg => register crypto s now reg
  | .heartbeat hb => heartbeat crypto s now hb

/-- The signature of a message is one of its identity. -/
def Verified (m : Message) : Prop :=
  ∃ pubkey, verifySigned crypto m.identity m.signature m.canonical = .ok pubkey

/-- A message that verifies and, if it is a heartbeat, is for an identity with an entry. -/
def Effective (m : Message) : Prop :=
  Verified crypto m ∧ ∀ hb, m = .heartbeat hb → ∃ entry, s.nodes hb.identityPubkey = some entry

/-- What the handler of an effective message does. -/
inductive Received (now : ℕ) : Message → State → Prop
  | register {reg : NodeRegistration} (verified : Verified crypto (.register reg)) :
    Received now (.register reg)
      { s with nodes := update s.nodes reg.identityPubkey (some ⟨reg, now⟩) }
  | heartbeat {hb : NodeHeartbeat} {entry : Entry} (verified : Verified crypto (.heartbeat hb))
    (listed : s.nodes hb.identityPubkey = some entry) : Received now (.heartbeat hb)
      { s with nodes := update s.nodes hb.identityPubkey (some { entry with lastSeen := now }) }

variable {crypto s} {now : ℕ} {m : Message} {s' : State}

/-- **A message that the coordinator accepts** verifies, and becomes or refreshes an entry. -/
theorem receive_eq_ok : receive crypto s now m = .ok s' ↔ Received crypto s now m s' := by
  cases m with
  | register reg =>
    simp only [receive, register, bind_eq_ok, pure_eq_ok]
    constructor
    · rintro ⟨pubkey, verified, rfl⟩
      exact .register ⟨pubkey, verified⟩
    · rintro ⟨pubkey, verified⟩
      exact ⟨pubkey, verified, rfl⟩
  | heartbeat hb =>
    simp only [receive, heartbeat, bind_eq_ok, pure_eq_ok, orThrow_eq_ok]
    constructor
    · rintro ⟨pubkey, verified, entry, listed, rfl⟩
      exact .heartbeat ⟨pubkey, verified⟩ listed
    · rintro (_ | ⟨⟨pubkey, verified⟩, listed⟩)
      exact ⟨pubkey, verified, _, listed, rfl⟩

/-- The messages that are accepted are the effective ones. -/
theorem exists_receive : (∃ s', receive crypto s now m = .ok s') ↔ Effective crypto s m := by
  simp only [receive_eq_ok]
  constructor
  · rintro ⟨s', verified | ⟨verified, listed⟩⟩
    · exact ⟨verified, nofun⟩
    · refine ⟨verified, fun hb heq => ?_⟩
      cases heq
      exact ⟨_, listed⟩
  · rintro ⟨verified, hlisted⟩
    cases m with
    | register reg => exact ⟨_, .register verified⟩
    | heartbeat hb =>
      obtain ⟨entry, listed⟩ := hlisted hb rfl
      exact ⟨_, .heartbeat verified listed⟩

/-! ## The runs -/

/-- The coordinator, and what the owners of keys signed, in the order in which they did. -/
structure World where
  coord : State
  signed : List (List UInt8 × List UInt8)

inductive Action
  | sign (key message : List UInt8)
  | deliver (now : ℕ) (m : Message)
  | postBid (nowSecs : ℕ) (bid : Bid)
  | gcNodes (shard : String → Bool) (now : ℕ)
  | gcBids (shard : String × BackendType → Bool) (nowSecs : ℕ)

variable (crypto)

/-- The state after an action. A request that is refused leaves no trace. -/
def next (w : World) : Action → World
  | .sign key message => { w with signed := w.signed ++ [(key, message)] }
  | .deliver now m =>
    match receive crypto w.coord now m with
    | .ok s => { w with coord := s }
    | .error _ => w
  | .postBid nowSecs bid =>
    match postBid crypto w.coord nowSecs bid with
    | .ok s => { w with coord := s }
    | .error _ => w
  | .gcNodes shard now => { w with coord := gcNodes w.coord shard now }
  | .gcBids shard nowSecs => { w with coord := gcBids w.coord shard nowSecs }

/-- The runs of a coordinator that just started. Signatures are unforgeable: the bytes of a message
that verifies were signed by the owner of its key. -/
def machine : Machine World Action where
  Init w := w.coord = State.start
  Legal w
    | .deliver _ m => Verified crypto m → m.signedAs ∈ w.signed
    | _ => True
  next := next crypto

/-- The events of the runs. -/
abbrev Step := Event World Action

/-- A message is accepted at a time. -/
def Accepts (e : Step) (now : ℕ) (m : Message) : Prop :=
  e.act = .deliver now m ∧ ∃ s, receive crypto e.pre.coord now m = .ok s

/-- A message for an identity is accepted. -/
def AcceptsFor (k : String) (e : Step) : Prop := ∃ now m, Accepts crypto e now m ∧ m.identity = k

/-- A registration of an identity is accepted. -/
def Registers (k : String) (e : Step) : Prop :=
  ∃ now reg, Accepts crypto e now (.register reg) ∧ reg.identityPubkey = k

/-- Every entry was refreshed last by a message that was not accepted before, and has the accepted
registration that its owner signed last. -/
def Fresh (h : List Step) (w : World) : Prop :=
  ∀ k entry, w.coord.nodes k = some entry →
    (∃ before e m, LastOf (AcceptsFor crypto k) h before e ∧ Accepts crypto e entry.lastSeen m ∧
      ∀ e' ∈ before, ∀ now m', Accepts crypto e' now m' → m'.signedAs ≠ m.signedAs) ∧
    (∃ e ∈ h, ∃ now, Accepts crypto e now (.register entry.reg)) ∧
    ∀ e ∈ h, ∀ now reg, Accepts crypto e now (.register reg) → reg.identityPubkey = k →
      w.signed.idxOf (Message.register reg).signedAs ≤
        w.signed.idxOf (Message.register entry.reg).signedAs

/-- The condition on a delivery: an effective message is none that was delivered to effect before,
and a registration is signed later than those of its identity that were. -/
def Unreplayed (h : List Step) (e : Step) : Prop :=
  ∀ now m, e.act = .deliver now m → Effective crypto e.pre.coord m →
    (∀ e' ∈ h, ∀ now' m', e'.act = .deliver now' m' → Effective crypto e'.pre.coord m' →
      m'.signedAs ≠ m.signedAs) ∧
    ∀ reg, m = .register reg → ∀ e' ∈ h, ∀ now' reg', e'.act = .deliver now' (.register reg') →
      Verified crypto (.register reg') → reg'.identityPubkey = reg.identityPubkey →
      e.pre.signed.idxOf (Message.register reg').signedAs ≤
        e.pre.signed.idxOf (Message.register reg).signedAs

variable {crypto} {w w' : World} {a : Action} {h : List Step} {e : Step} {k : String}
  {entry : Entry} {reg : NodeRegistration}

theorem Accepts.unique {t : ℕ} {m' : Message} (hm : Accepts crypto e now m)
    (hm' : Accepts crypto e t m') : t = now ∧ m' = m := by
  have heq := hm'.1.symm.trans hm.1
  cases heq
  exact ⟨rfl, rfl⟩

theorem accepts_iff :
    Accepts crypto e now m ↔ e.act = .deliver now m ∧ Effective crypto e.pre.coord m :=
  and_congr_right' exists_receive

theorem Accepts.verified (hm : Accepts crypto e now m) : Verified crypto m :=
  (accepts_iff.1 hm).2.1

/-- Only a delivery is accepted. -/
theorem not_acceptsFor (ha : ∀ now m, e.act ≠ .deliver now m) : ¬ AcceptsFor crypto k e := by
  rintro ⟨now, m, ⟨hact, -⟩, -⟩
  exact ha now m hact

theorem Registers.acceptsFor (hk : Registers crypto k e) : AcceptsFor crypto k e := by
  obtain ⟨now, reg, haccepts, hreg⟩ := hk
  exact ⟨now, _, haccepts, hreg⟩

/-! ## Where an entry comes from -/

/-- What a message that is accepted can have done with an entry: it is for another identity, or
the entry is from it. -/
theorem Received.entry_cases (received : Received crypto s now m s')
    (hentry : s'.nodes k = some entry) : m.identity ≠ k ∧ s.nodes k = some entry ∨
      m.identity = k ∧ entry.lastSeen = now ∧ (m = .register entry.reg ∨
        (∀ reg, m ≠ .register reg) ∧ ∃ old, s.nodes k = some old ∧ old.reg = entry.reg) := by
  cases received with
  | @register reg =>
    by_cases hk : k = reg.identityPubkey
    · subst hk
      obtain rfl : (⟨reg, now⟩ : Entry) = entry := by simpa using hentry
      exact .inr ⟨rfl, rfl, .inl rfl⟩
    · exact .inl ⟨Ne.symm hk, by simpa only [update_of_ne hk] using hentry⟩
  | @heartbeat hb old _ listed =>
    by_cases hk : k = hb.identityPubkey
    · subst hk
      obtain rfl : ({ old with lastSeen := now } : Entry) = entry := by simpa using hentry
      exact .inr ⟨rfl, rfl, .inr ⟨nofun, old, listed, rfl⟩⟩
    · exact .inl ⟨Ne.symm hk, by simpa only [update_of_ne hk] using hentry⟩

/-- What an action can have done with an entry: it was there, and the action is for another
identity, or the entry is from the message that the action delivers. -/
theorem entry_next (hentry : (next crypto w a).coord.nodes k = some entry) :
    (w.coord.nodes k = some entry ∧ ¬ AcceptsFor crypto k ⟨w, a, next crypto w a⟩) ∨
      ∃ m, Accepts crypto ⟨w, a, next crypto w a⟩ entry.lastSeen m ∧ m.identity = k ∧
        (m = .register entry.reg ∨ (∀ reg, m ≠ .register reg) ∧
          ∃ old, w.coord.nodes k = some old ∧ old.reg = entry.reg) := by
  cases a with
  | sign key message => exact .inl ⟨hentry, not_acceptsFor (by simp)⟩
  | postBid nowSecs bid =>
    refine .inl ⟨?_, not_acceptsFor (by simp)⟩
    simp only [next] at hentry
    split at hentry
    · rename_i s hs
      simp only [postBid, bind_eq_ok, require_eq_ok, pure_eq_ok] at hs
      obtain ⟨-, -, -, -, rfl⟩ := hs
      exact hentry
    · exact hentry
  | gcNodes shard now =>
    refine .inl ⟨?_, not_acceptsFor (by simp)⟩
    exact (Option.filter_eq_some_iff.1 hentry).1
  | gcBids shard nowSecs => exact .inl ⟨hentry, not_acceptsFor (by simp)⟩
  | deliver now m =>
    cases hreceive : receive crypto w.coord now m with
    | error e =>
      simp only [next, hreceive] at hentry ⊢
      refine .inl ⟨hentry, ?_⟩
      rintro ⟨t, m', ⟨hact, s, hs⟩, -⟩
      cases hact
      cases hreceive.symm.trans hs
    | ok s =>
      have haccepts : Accepts crypto ⟨w, .deliver now m, next crypto w (.deliver now m)⟩ now m :=
        ⟨rfl, s, hreceive⟩
      simp only [next, hreceive] at hentry
      rcases (receive_eq_ok.1 hreceive).entry_cases hentry with
        ⟨hk, hsame⟩ | ⟨hk, rfl, hreg⟩
      · refine .inl ⟨hsame, ?_⟩
        rintro ⟨t, m', haccepts', hm'⟩
        obtain ⟨-, rfl⟩ := haccepts.unique haccepts'
        exact hk hm'
      · exact .inr ⟨m, haccepts, hk, hreg⟩

/-- The messages that an entry is from: the last one accepted for its identity, at its time, and
the last registration accepted. -/
structure Stems (crypto : IdentityCrypto) (h : List Step) (k : String) (entry : Entry) : Prop where
  seen : ∃ before e m, LastOf (AcceptsFor crypto k) h before e ∧ Accepts crypto e entry.lastSeen m
  registered : ∃ before e now, LastOf (Registers crypto k) h before e ∧
    Accepts crypto e now (.register entry.reg)

/-- **Where an entry comes from**, in every state of every run. -/
theorem entry_spec (H : (machine crypto).History h w) (hentry : w.coord.nodes k = some entry) :
    Stems crypto h k entry := by
  obtain ⟨w₀, hinit, r⟩ := H
  refine r.invariantHistory (fun h w => ∀ entry, w.coord.nodes k = some entry →
    Stems crypto h k entry) (fun _ _ => True) (fun _ _ _ _ => trivial) ?_ ?_ entry hentry
  · intro entry hentry
    rw [show w₀.coord = State.start from hinit] at hentry
    cases hentry
  · intro h w a _ ih _ _ entry hentry
    rcases entry_next hentry with ⟨hsame, hnot⟩ | ⟨m, haccepts, hm, hreg⟩
    · obtain ⟨⟨before, e, m, hlast, hseen⟩, before', e', now, hlast', hreg⟩ := ih entry hsame
      exact ⟨⟨before, e, m, hlast.concat hnot, hseen⟩, before', e', now,
        hlast'.concat fun hk => hnot hk.acceptsFor, hreg⟩
    · refine ⟨⟨h, _, m, lastOf_concat ⟨_, m, haccepts, hm⟩, haccepts⟩, ?_⟩
      rcases hreg with rfl | ⟨hno, old, hold, hreg⟩
      · exact ⟨h, _, _, lastOf_concat ⟨_, _, haccepts, hm⟩, haccepts⟩
      · -- a heartbeat leaves the registration
        obtain ⟨before, e, now, hlast, hregs⟩ := (ih old hold).registered
        refine ⟨before, e, now, hlast.concat ?_, hreg ▸ hregs⟩
        rintro ⟨t, reg, haccepts', -⟩
        obtain ⟨-, rfl⟩ := haccepts.unique haccepts'
        exact hno reg rfl

/-- What was signed stays signed, in its place. -/
theorem signed_grows (r : Run (machine crypto) w h w') : ∃ l, w'.signed = w.signed ++ l := by
  refine r.invariant (fun w' => ∃ l, w'.signed = w.signed ++ l) ⟨[], by simp⟩ ?_
  rintro w' a ⟨l, hl⟩ -
  cases a with
  | sign key message => exact ⟨l ++ [(key, message)], by simp [machine, next, hl]⟩
  | deliver now m => simp only [machine, next]; split <;> exact ⟨l, hl⟩
  | postBid nowSecs bid => simp only [machine, next]; split <;> exact ⟨l, hl⟩
  | gcNodes shard now => exact ⟨l, hl⟩
  | gcBids shard nowSecs => exact ⟨l, hl⟩

/-- What an accepted message is for was signed by its owner. -/
theorem Accepts.signed (r : Run (machine crypto) w h w') (he : e ∈ h)
    (hm : Accepts crypto e now m) : m.signedAs ∈ e.pre.signed ∧ m.signedAs ∈ w'.signed := by
  have hlegal := r.legal he
  rw [hm.1] at hlegal
  have hsigned : m.signedAs ∈ e.pre.signed := hlegal hm.verified
  obtain ⟨h₁, h₂, rfl⟩ := List.append_of_mem he
  obtain ⟨l, hl⟩ := signed_grows r.rest
  exact ⟨hsigned, hl ▸ List.mem_append_left l hsigned⟩

/-- Of two messages that were signed, the one that was signed first stays so. -/
theorem idxOf_signed_le {m' : Message} (r : Run (machine crypto) w h w')
    (hm : m.signedAs ∈ w.signed) (hm' : m'.signedAs ∈ w.signed)
    (hle : w.signed.idxOf m.signedAs ≤ w.signed.idxOf m'.signedAs) :
    w'.signed.idxOf m.signedAs ≤ w'.signed.idxOf m'.signedAs := by
  obtain ⟨l, hl⟩ := signed_grows r
  rwa [hl, List.idxOf_append_of_mem hm, List.idxOf_append_of_mem hm']

/-! ## Replays -/

/-- Without a replay, the registration of an entry was signed last. -/
theorem registered_last (r : Run (machine crypto) w h w') (hun : Along (Unreplayed crypto) h)
    {before : List Step} (hlast : LastOf (Registers crypto k) h before e)
    (hreg : Accepts crypto e now (.register reg)) {e₁ : Step} (he₁ : e₁ ∈ h) {t : ℕ}
    {reg₁ : NodeRegistration} (hreg₁ : Accepts crypto e₁ t (.register reg₁))
    (hk : reg₁.identityPubkey = k) :
    w'.signed.idxOf (Message.register reg₁).signedAs ≤
      w'.signed.idxOf (Message.register reg).signedAs := by
  rcases hlast.mem_before he₁ ⟨t, reg₁, hreg₁, hk⟩ with hbefore | rfl
  · obtain ⟨⟨t', reg', hreg', hk'⟩, rest, rfl, -⟩ := hlast
    obtain ⟨-, heq⟩ := hreg.unique hreg'
    obtain rfl : reg' = reg := Message.register.inj heq
    obtain ⟨hact, heff⟩ := accepts_iff.1 hreg
    have hle := (hun before e rest rfl _ _ hact heff).2 _ rfl e₁ hbefore t reg₁ hreg₁.1
      hreg₁.verified (hk.trans hk'.symm)
    -- both were signed when the later one was accepted, and keep their places
    have hsigned := (hreg.signed r (by simp)).1
    have hsigned₁ := (hreg₁.signed r.split.1 hbefore).2
    exact idxOf_signed_le r.rest hsigned₁ hsigned hle
  · obtain ⟨-, heq⟩ := hreg.unique hreg₁
    rw [heq]

/-- Without a replay, every entry is fresh. -/
theorem fresh_of_unreplayed (H : (machine crypto).History h w)
    (hun : Along (Unreplayed crypto) h) : Fresh crypto h w := by
  intro k entry hentry
  obtain ⟨⟨before, e, m, hlast, hseen⟩, before', e', t, hlast', hreg⟩ := entry_spec H hentry
  obtain ⟨w₀, -, r⟩ := H
  refine ⟨⟨before, e, m, hlast, hseen, ?_⟩, ?_, ?_⟩
  · -- the message that refreshed the entry last was not accepted before
    intro e₁ he₁ t₁ m₁ hm₁
    obtain ⟨-, rest, rfl, -⟩ := hlast
    obtain ⟨hact, heff⟩ := accepts_iff.1 hseen
    obtain ⟨hact₁, heff₁⟩ := accepts_iff.1 hm₁
    exact (hun before e rest rfl _ _ hact heff).1 e₁ he₁ t₁ m₁ hact₁ heff₁
  · obtain ⟨-, rest, rfl, -⟩ := hlast'
    exact ⟨e', by simp, t, hreg⟩
  · intro e₁ he₁ t₁ reg₁ hreg₁ hk
    exact registered_last r hun hlast' hreg he₁ hreg₁ hk

/-- An accepted message leaves an entry, and an accepted registration is its registration. -/
theorem Accepts.exists_entry (hm : Accepts crypto e now m)
    (hpost : e.post = next crypto e.pre e.act) : e.post.signed = e.pre.signed ∧
      ∃ entry, e.post.coord.nodes m.identity = some entry ∧
        ∀ reg, m = .register reg → entry.reg = reg := by
  obtain ⟨hact, s, hreceive⟩ := hm
  rw [hpost, hact, next, hreceive]
  refine ⟨rfl, ?_⟩
  cases receive_eq_ok.1 hreceive with
  | @register reg =>
    refine ⟨⟨reg, now⟩, update_self .., fun reg' heq => ?_⟩
    exact Message.register.inj heq
  | @heartbeat hb old => exact ⟨{ old with lastSeen := now }, update_self .., nofun⟩

/-- A replay that has effect leaves an entry that is not fresh. -/
theorem unreplayed_of_fresh (hpost : e.post = next crypto e.pre e.act)
    (hfresh : Fresh crypto (h ++ [e]) e.post) : Unreplayed crypto h e := by
  intro t m hact heff
  have haccepts : Accepts crypto e t m := accepts_iff.2 ⟨hact, heff⟩
  obtain ⟨hsigned, entry, hentry, hreg⟩ := haccepts.exists_entry hpost
  obtain ⟨⟨before, e', m', hlast, hseen, hnew⟩, -, horder⟩ := hfresh _ entry hentry
  obtain ⟨rfl, rfl⟩ := hlast.eq_of_concat ⟨t, m, haccepts, rfl⟩
  obtain ⟨-, rfl⟩ := haccepts.unique hseen
  refine ⟨fun e₁ he₁ t₁ m₁ hact₁ heff₁ => ?_, ?_⟩
  · exact hnew e₁ he₁ t₁ m₁ (accepts_iff.2 ⟨hact₁, heff₁⟩)
  · rintro reg rfl e₁ he₁ t₁ reg₁ hact₁ hverified₁ hk
    have haccepts₁ : Accepts crypto e₁ t₁ (.register reg₁) :=
      accepts_iff.2 ⟨hact₁, hverified₁, nofun⟩
    have hle := horder e₁ (List.mem_append_left _ he₁) t₁ reg₁ haccepts₁ hk
    rwa [hsigned, hreg reg rfl] at hle

/-- **The entries of a run are fresh**, at every moment of it, exactly when no message that has
effect is a replay. -/
theorem fresh_iff (H : (machine crypto).History h w) :
    Along (fun h e => Fresh crypto (h ++ [e]) e.post) h ↔ Along (Unreplayed crypto) h := by
  obtain ⟨w₀, hinit, r⟩ := H
  constructor
  · rintro hfresh h₁ e h₂ rfl
    exact unreplayed_of_fresh (r.post_eq (by simp)) (hfresh h₁ e h₂ rfl)
  · rintro hun h₁ e h₂ rfl
    rw [List.append_cons] at r hun
    obtain ⟨w₁, r₁, -⟩ := r.splitAppend
    obtain ⟨-, -, -, rfl⟩ := r₁.of_concat
    exact fresh_of_unreplayed ⟨w₀, hinit, r₁⟩ hun.left

/-- What the delivery of a registration that verifies does. -/
theorem next_register (verified : Verified crypto (.register reg)) :
    next crypto w (.deliver now (.register reg)) = { w with coord :=
      { w.coord with nodes := update w.coord.nodes reg.identityPubkey (some ⟨reg, now⟩) } } := by
  have hreceived : Received crypto w.coord now (.register reg) _ := .register verified
  rw [next, receive_eq_ok.2 hreceived]

/-- **A registration that was accepted is accepted again**, at any time: anybody can send it, and
its identity has it then. -/
theorem accepted_again (r : Run (machine crypto) w h w') (he : e ∈ h)
    (hreg : Accepts crypto e now (.register reg)) (later : ℕ) :
    (machine crypto).Legal w' (.deliver later (.register reg)) ∧
      ((machine crypto).next w' (.deliver later (.register reg))).coord.nodes reg.identityPubkey =
        some ⟨reg, later⟩ := by
  refine ⟨fun _ => (hreg.signed r he).2, ?_⟩
  simp only [machine, next_register hreg.verified, update_self]

variable (crypto) in
/-- The environment of a coordinator to which owners send their messages once, in the order in
which they sign them: another sender has a message from a delivery or from `GET /nodes`. -/
def Permitted (h : List Step) (e : Step) : Prop :=
  ∀ now m, e.act = .deliver now m → Verified crypto m →
    (∀ e' ∈ h, ∀ now' m', e'.act = .deliver now' m' → m'.identity = m.identity →
      e.pre.signed.idxOf m'.signedAs < e.pre.signed.idxOf m.signedAs) ∨
    (∃ e' ∈ h, ∃ now', e'.act = .deliver now' m) ∨
    ∃ e' ∈ h, ∃ entries reg, Iterates e'.pre.coord entries ∧ reg ∈ listNodes entries ∧
      m = .register reg

namespace Deployment

/-- The key of a node. -/
def key : List UInt8 := .replicate identityPubkeySize 2

/-- The identity of the node. -/
def identity : String := .ofList (hexEncode key)

/-- A registration of the node that is not signed yet, for its service at `url`. -/
def unsigned (url : String) : NodeRegistration :=
  ⟨identity, "", url, [.Local], 8, [], url, ""⟩

/-- The registration, signed. -/
def registration (url : String) : NodeRegistration :=
  { unsigned url with signature := .ofList (hexEncode
      (IdentityCrypto.symbolicSign key (canonicalRegisterBytes (unsigned url)))) }

theorem identity_registration (url : String) : (registration url).identityPubkey = identity := rfl

theorem verified_registration (url : String) :
    Verified .symbolic (.register (registration url)) := by
  have hcanonical : canonicalRegisterBytes (registration url) =
    canonicalRegisterBytes (unsigned url) := canonicalRegisterBytes_sign ..
  have hverify := verifySigned_symbolic (show key.length = _ from List.length_replicate)
    (canonicalRegisterBytes (registration url))
  rw [Verified, Message.canonical]
  refine ⟨key, ?_⟩
  rw [hcanonical] at hverify ⊢
  exact hverify

theorem signedAs_registration (url : String) : (Message.register (registration url)).signedAs =
    (key, canonicalRegisterBytes (registration url)) := by
  have hkey : hexDecode (utf8 identity.toList) = .ok key := by
    rw [identity, String.toList_ofList, hexDecode_hexEncode]
  have hidentity : (Message.register (registration url)).identity = identity := rfl
  rw [Message.signedAs, hidentity, hkey, Message.canonical]
  simp only [Except.toOption, Option.getD_some]

theorem canonicalRegisterBytes_ne :
    canonicalRegisterBytes (registration "a") ≠ canonicalRegisterBytes (registration "b") := by
  rw [registration, registration, canonicalRegisterBytes_sign, canonicalRegisterBytes_sign]
  decide +kernel

/-- A history in which the node alone spoke, and said everything once. -/
structure Honest (h : List Step) (w : World) : Prop where
  history : (machine .symbolic).History h w
  permitted : Along (Permitted .symbolic) h
  unreplayed : Along (Unreplayed .symbolic) h
  delivered : ∀ e ∈ h, ∀ now m, e.act = .deliver now m → m.signedAs ∈ w.signed

theorem honest_nil : Honest [] ⟨State.start, []⟩ :=
  ⟨⟨⟨State.start, []⟩, rfl, .nil⟩, along_nil, along_nil, by simp⟩

/-- The node signs a registration. -/
theorem Honest.sign (S : Honest h w) (message : List UInt8) :
    Honest (h ++ [⟨w, .sign key message, next .symbolic w (.sign key message)⟩])
      (next .symbolic w (.sign key message)) := by
  refine ⟨S.history.concat trivial, along_concat.2 ⟨S.permitted, fun _ _ hact => nomatch hact⟩,
    along_concat.2 ⟨S.unreplayed, fun _ _ hact => nomatch hact⟩, fun e he now m hact => ?_⟩
  rcases List.mem_append.1 he with he | he
  · exact List.mem_append_left _ (S.delivered e he now m hact)
  · obtain rfl := List.mem_singleton.1 he
    cases hact

/-- What was signed last comes after what was delivered. -/
theorem idxOf_lt_concat {α : Type*} [BEq α] [LawfulBEq α] {l : List α} {x y : α} (hx : x ∈ l)
    (hy : y ∉ l) : (l ++ [y]).idxOf x < (l ++ [y]).idxOf y := by
  rw [List.idxOf_append_of_mem hx, List.idxOf_append_of_notMem hy]
  exact Nat.lt_of_lt_of_le (List.idxOf_lt_length_of_mem hx) (Nat.le_add_right ..)

/-- The node sends the registration that it signed last. -/
theorem Honest.register (S : Honest h w) {signed : List (List UInt8 × List UInt8)} {url : String}
    (hw : w.signed = signed ++ [(Message.register (registration url)).signedAs])
    (hdelivered : ∀ e ∈ h, ∀ now m, e.act = .deliver now m → m.signedAs ∈ signed)
    (hnew : (Message.register (registration url)).signedAs ∉ signed) (now : ℕ) :
    Honest (h ++ [⟨w, .deliver now (.register (registration url)),
        next .symbolic w (.deliver now (.register (registration url)))⟩])
      (next .symbolic w (.deliver now (.register (registration url)))) := by
  have hlt : ∀ e ∈ h, ∀ t m, e.act = .deliver t m → w.signed.idxOf m.signedAs <
      w.signed.idxOf (Message.register (registration url)).signedAs := fun e he t m hact =>
    hw ▸ idxOf_lt_concat (hdelivered e he t m hact) hnew
  refine ⟨S.history.concat fun _ => by simp [hw], along_concat.2 ⟨S.permitted, ?_⟩,
    along_concat.2 ⟨S.unreplayed, ?_⟩, ?_⟩
  · rintro t m hact -
    cases hact
    exact .inl fun e he t m hact _ => hlt e he t m hact
  · rintro t m hact -
    cases hact
    refine ⟨fun e he t m hact _ heq => ?_, ?_⟩
    · exact hnew (heq ▸ hdelivered e he t m hact)
    · rintro reg heq e he t reg' hact - -
      cases heq
      exact (hlt e he t _ hact).le
  · rw [next_register (verified_registration url)]
    intro e he t m hact
    rcases List.mem_append.1 he with he | he
    · exact S.delivered e he t m hact
    · obtain rfl := List.mem_singleton.1 he
      cases hact
      simp [hw]

/-- The node signs a registration that it did not sign before, and sends it. -/
theorem Honest.registers (S : Honest h w) (url : String)
    (hnew : (Message.register (registration url)).signedAs ∉ w.signed) (now : ℕ) :
    ∃ e₁ e₂, Honest (h ++ [e₁] ++ [e₂]) e₂.post ∧ e₁.pre = w ∧
      Accepts .symbolic e₂ now (.register (registration url)) ∧
      e₂.post = ⟨{ w.coord with
          nodes := update w.coord.nodes identity (some ⟨registration url, now⟩) },
        w.signed ++ [(Message.register (registration url)).signedAs]⟩ := by
  have S₁ := S.sign (canonicalRegisterBytes (registration url))
  have hsigned : (key, canonicalRegisterBytes (registration url)) =
    (Message.register (registration url)).signedAs := (signedAs_registration url).symm
  have hw : (next .symbolic w (.sign key (canonicalRegisterBytes (registration url)))).signed =
    w.signed ++ [(Message.register (registration url)).signedAs] := by rw [next, hsigned]
  refine ⟨_, _, S₁.register hw (fun e he t m hact => ?_) hnew now, rfl,
    accepts_iff.2 ⟨rfl, verified_registration url, nofun⟩, ?_⟩
  · rcases List.mem_append.1 he with he | he
    · exact S.delivered e he t m hact
    · obtain rfl := List.mem_singleton.1 he
      cases hact
  · show next .symbolic _ (.deliver now (.register (registration url))) = _
    rw [next_register (verified_registration url), hw]
    rfl

theorem signedAs_ne : (Message.register (registration "a")).signedAs ≠
    (Message.register (registration "b")).signedAs := by
  rw [signedAs_registration, signedAs_registration]
  exact fun heq => canonicalRegisterBytes_ne (Prod.mk.inj heq).2

/-- The node registers at `a`, and then at `b`. -/
theorem honest_moved : ∃ e₁ e₂ e₃ e₄, Honest [e₁, e₂, e₃, e₄] e₄.post ∧
    Accepts .symbolic e₂ 0 (.register (registration "a")) ∧
    Accepts .symbolic e₄ 1 (.register (registration "b")) ∧
    e₃.pre.coord.nodes = update (fun _ => none) identity (some ⟨registration "a", 0⟩) ∧
    e₄.post.coord.nodes identity = some ⟨registration "b", 1⟩ ∧
    e₄.post.signed = [(Message.register (registration "a")).signedAs,
      (Message.register (registration "b")).signedAs] := by
  obtain ⟨e₁, e₂, S₂, -, hacc₂, hpost₂⟩ := honest_nil.registers "a" (by simp) 0
  have hnew : (Message.register (registration "b")).signedAs ∉ e₂.post.signed := by
    simpa [hpost₂] using signedAs_ne.symm
  obtain ⟨e₃, e₄, S₄, hpre₃, hacc₄, hpost₄⟩ := S₂.registers "b" hnew 1
  refine ⟨e₁, e₂, e₃, e₄, S₄, hacc₂, hacc₄, ?_, ?_, ?_⟩
  · rw [hpre₃, hpost₂]
    rfl
  · simp only [hpost₄, update_self]
  · rw [hpost₄, hpost₂]
    rfl

/-- The sweep of the registry when the node was silent for long. -/
def sweep : Action := .gcNodes (fun _ => true) 40000000000

end Deployment

open Deployment

/-- The entry of a node that moved is fresh. -/
theorem fresh_moved : ∃ h w, (machine .symbolic).History h w ∧
    Along (fun h e => Fresh .symbolic (h ++ [e]) e.post) h ∧
    w.coord.nodes identity = some ⟨registration "b", 1⟩ := by
  obtain ⟨e₁, e₂, e₃, e₄, S, -, -, -, hentry, -⟩ := honest_moved
  exact ⟨_, _, S.history, (fresh_iff S.history).2 S.unreplayed, hentry⟩

/-- **A replay revives an entry and rolls it back**: the node that moved to `b` is dropped when it
is silent, and gets the registration at `a` that `GET /nodes` returned before. -/
theorem replayed_registration : ∃ h e, (machine .symbolic).History (h ++ [e]) e.post ∧
    Along (Permitted .symbolic) (h ++ [e]) ∧ e.pre.coord.nodes identity = none ∧
    (∃ t, e.post.coord.nodes identity = some ⟨registration "a", t⟩) ∧
    ¬ Fresh .symbolic (h ++ [e]) e.post := by
  obtain ⟨e₁, e₂, e₃, e₄, S, hacc₂, hacc₄, hlisted, hentry, hsigned⟩ := honest_moved
  obtain ⟨w₀, hinit, r⟩ := S.history
  obtain ⟨e₅, r₅, -, hact₅, hpost₅⟩ :=
    r.exists_snoc (show (machine .symbolic).Legal e₄.post sweep from trivial)
  have hgone : e₅.post.coord.nodes identity = none := by
    simp [hpost₅, machine, sweep, next, gcNodes, hentry, heartbeatTimeout]
  obtain ⟨hlegal, hrevived⟩ := accepted_again r₅ (by simp) hacc₂ 41000000000
  obtain ⟨e₆, r₆, hpre₆, hact₆, hpost₆⟩ := r₅.exists_snoc hlegal
  rw [← hpost₆, identity_registration] at hrevived
  refine ⟨_, e₆, ⟨w₀, hinit, r₆⟩, ?_, hpre₆ ▸ hgone, ⟨_, hrevived⟩, fun hfresh => ?_⟩
  · refine along_concat.2 ⟨along_concat.2 ⟨S.permitted, ?_⟩, ?_⟩
    · rintro t m hact -
      cases hact₅.symm.trans hact
    · rintro t m hact -
      obtain ⟨-, rfl⟩ := Action.deliver.inj (hact₆.symm.trans hact)
      refine .inr (.inr ⟨e₃, by simp, [(identity, ⟨registration "a", 0⟩)], registration "a",
        iterates_single hlisted, by simp [listNodes], rfl⟩)
  · -- the registration at `b` was accepted, and signed later
    have hle := (hfresh _ _ hrevived).2.2 e₄ (by simp) 1 (registration "b") hacc₄ rfl
    have hsigned₅ : e₅.post.signed = e₄.post.signed := by
      rw [hpost₅]
      simp only [machine, next, sweep]
    have hsigned₆ : e₆.post.signed = e₅.post.signed := by
      rw [hpost₆]
      simp only [machine, next_register hacc₂.verified]
    rw [hsigned₆, hsigned₅, hsigned, List.idxOf_cons_self, List.idxOf_cons_ne _ signedAs_ne] at hle
    exact absurd hle (Nat.not_succ_le_zero _)

end Flodex.Coordinator
