import Flodex.Foundations.Run
import Flodex.Foundations.Utf8
import Flodex.Node.Identity

/-!
# Starts and restarts

Starts of nodes, at any paths of a host and one after the other. `keepsIdentities_iff` says when
identities are stable and not shared: when every legacy file that is copied has the seeds of an
identity, and only one path besides the default one gets a copy.
-/

namespace Flodex.Node.Identity

variable (home : Option Path) (serde : IdentityJson)

/-- Starts at any paths, from any files. -/
def machine : Machine FileSystem Call where
  Init _ := True
  Legal := Legal home serde
  next fs c := ((loadOrGenerate home serde c).exec fs).2

/-- What a start returns. -/
def answer (e : Event FileSystem Call) : Except Error (NodeKeys × NodeIdentity) :=
  ((loadOrGenerate home serde e.act).exec e.pre).1

/-- The path is the default one. -/
def IsDefault (p : Path) : Prop := defaultPath none home = .ok p

/-- A start of the history copies the legacy file to the path. -/
def Migrated (h : List (Event FileSystem Call)) (p : Path) : Prop :=
  ∃ e ∈ h, e.act.path = p ∧ Migrates home e.pre p

/-- Identity files are stable and not shared: a start at a file returns what it holds and changes
nothing, a start at a path without a file creates one, whose keys all starts there return, and
starts at two paths that had none return different identities, the legacy path and a copy at the
default path excepted. -/
structure KeepsIdentities (s : FileSystem) (h : List (Event FileSystem Call)) : Prop where
  existing : ∀ e ∈ h, ∀ bytes, e.pre.entry e.act.path = some (.file bytes) →
    e.post = e.pre ∧ ∀ r, answer home serde e = .ok r → Holds serde bytes r
  created : ∀ h₁ e h₂, h = h₁ ++ e :: h₂ → e.pre.entry e.act.path = none →
    ∃ r, answer home serde e = .ok r ∧ e.post.isFile e.act.path ∧
      ∀ e' ∈ h₂, e'.act.path = e.act.path → answer home serde e' = .ok r
  apart : ∀ e ∈ h, ∀ e' ∈ h, ∀ r r', e.act.path ≠ e'.act.path →
    (∀ p ∈ [e.act.path, e'.act.path], s.entry p = none ∧ p ∉ home.map legacyPath ∧
      ¬ (IsDefault home p ∧ Migrated home h p)) →
    answer home serde e = .ok r → answer home serde e' = .ok r' → r.2 ≠ r'.2

/-- A legacy file that is copied has seeds of an identity, and one path at most, besides the default
one, gets a copy. -/
structure CopiesOnce (h : List (Event FileSystem Call)) : Prop where
  readable : ∀ e ∈ h, Migrates home e.pre e.act.path → ∀ legacy ∈ home.map legacyPath,
    ∃ r, Loads serde e.pre legacy r
  single : ∀ e ∈ h, ∀ e' ∈ h, Migrates home e.pre e.act.path → Migrates home e'.pre e'.act.path →
    ¬ IsDefault home e.act.path → ¬ IsDefault home e'.act.path → e.act.path = e'.act.path

/-! ## Runs -/

variable {home serde} {c : Call} {p : Path} {r r' : NodeKeys × NodeIdentity}
  {x : Except Error (NodeKeys × NodeIdentity)} {s t t' : FileSystem}
  {h h₁ h₂ : List (Event FileSystem Call)} {e : Event FileSystem Call}

theorem start_of_mem (hserde : serde.RoundTrips) (run : Run (machine home serde) s h t)
    (he : e ∈ h) : Start home serde e.pre e.act (answer home serde e) e.post := by
  rw [run.post_eq he]
  exact start_spec hserde (run.legal he)

/-- Nothing that is there changes. -/
theorem entry_kept (hserde : serde.RoundTrips) (run : Run (machine home serde) s h t) {e : Entry}
    (hp : s.entry p = some e) : t.entry p = some e :=
  run.invariant (fun t => t.entry p = some e) hp fun _ _ ht legal =>
    (start_spec hserde legal).adds.kept p e ht

theorem Loads.kept (hserde : serde.RoundTrips) (run : Run (machine home serde) s h t)
    (hp : Loads serde s p r) : Loads serde t p r := by
  obtain ⟨bytes, hfile, hholds⟩ := hp
  exact ⟨bytes, entry_kept hserde run hfile, hholds⟩

/-- A path that had no file, and got no copy, has an identity of its own. -/
def Distinct (home : Option Path) (serde : IdentityJson) (s : FileSystem)
    (h : List (Event FileSystem Call)) (t : FileSystem) : Prop :=
  ∀ p q r r', s.entry p = none → p ∉ home.map legacyPath → ¬ Migrated home h p → p ≠ q →
    Loads serde t p r → Loads serde t q r' → r.2 ≠ r'.2

theorem Distinct.step (hdist : Distinct home serde s h t) (legal : Legal home serde t c)
    (hstart : Start home serde t c x t') : Distinct home serde s (h ++ [⟨t, c, t'⟩]) t' := by
  intro p q r r' hp hlegacy hnot hne hload hload'
  have hbefore : ¬ Migrated home h p := by
    rintro ⟨e, he, hm⟩
    exact hnot ⟨e, List.mem_append_left _ he, hm⟩
  rcases hstart.loads_cases hload with hold | ⟨rfl, ⟨hm, -⟩ | ⟨hg, hseed⟩⟩
  · rcases hstart.loads_cases hload' with hold' | ⟨rfl, ⟨-, legacy, hmem, hcopy⟩ | ⟨hg, hseed⟩⟩
    · exact hdist p q r r' hp hlegacy hbefore hne hold hold'
    · -- The keys are compared with those of the legacy file, which had them before.
      have hne' : p ≠ legacy := by
        rintro rfl
        exact hlegacy hmem
      exact hdist p legacy r r' hp hlegacy hbefore hne' hold hcopy
    · intro heq
      exact legal.fresh hg p r hold (heq ▸ hseed)
  · exact absurd ⟨⟨t, c, t'⟩, by simp, rfl, hm⟩ hnot
  · have hold' := hload'.of_adds hstart.adds hne.symm
    intro heq
    exact legal.fresh hg q r' hold' (heq ▸ hseed)

/-- **Identities are distinct** in every run, at the paths that got no copy. -/
theorem distinct (hserde : serde.RoundTrips) (run : Run (machine home serde) s h t) :
    Distinct home serde s h t := by
  refine run.invariantHistory (fun h t => Distinct home serde s h t) (fun _ _ => True)
    (fun _ _ _ _ => trivial) ?_ fun h t c _ hdist legal _ =>
      hdist.step legal (start_spec hserde legal)
  rintro p q r r' hp - - - ⟨bytes, hfile, -⟩
  rw [hp] at hfile
  cases hfile

/-- The keys that a start returned are those of the file from then on. -/
theorem loads_of_answer (hserde : serde.RoundTrips) (run : Run (machine home serde) s h t)
    (he : e ∈ h) (hans : answer home serde e = .ok r) : Loads serde t e.act.path r := by
  have hloads := (start_of_mem hserde run he).loads hans
  obtain ⟨h₁, h₂, rfl⟩ := List.append_of_mem he
  obtain ⟨-, -, -, run₂⟩ := run.split
  exact hloads.kept hserde run₂

theorem answer_of_loads (hserde : serde.RoundTrips) (run : Run (machine home serde) s h t)
    (he : e ∈ h) (hloads : Loads serde e.pre e.act.path r) : answer home serde e = .ok r := by
  have hfound : e.pre.entry e.act.path ≠ none := by
    obtain ⟨bytes, hfile, -⟩ := hloads
    rw [hfile]
    simp
  rw [((start_of_mem hserde run he).of_found hfound).1]
  exact load_eq_ok.2 hloads

/-- What a file holds is returned by all starts there. -/
theorem answer_later {e' : Event FileSystem Call} (hserde : serde.RoundTrips)
    (run : Run (machine home serde) s (h₁ ++ e :: h₂) t) (hloads : Loads serde e.post p r)
    (he' : e' ∈ h₂) (hpath : e'.act.path = p) : answer home serde e' = .ok r := by
  obtain ⟨-, -, -, run₂⟩ := run.split
  obtain ⟨_, run₃⟩ := run₂.exists_upTo he'
  subst hpath
  exact answer_of_loads hserde run₂ he' (hloads.kept hserde run₃)

/-- A path without a file had none at the start. -/
theorem missing_at_start (hserde : serde.RoundTrips) (run : Run (machine home serde) s h t)
    (he : e ∈ h) (hp : e.pre.entry p = none) : s.entry p = none := by
  obtain ⟨_, run₁⟩ := run.exists_upTo he
  by_contra hs
  obtain ⟨entry, hentry⟩ := Option.ne_none_iff_exists'.1 hs
  have hkept := entry_kept hserde run₁ hentry
  rw [hp] at hkept
  cases hkept

theorem created_of_copiesOnce (hserde : serde.RoundTrips) (run : Run (machine home serde) s h t)
    (hcopies : CopiesOnce home serde h) (he : e ∈ h) (hmissing : e.pre.entry e.act.path = none) :
    ∃ r, answer home serde e = .ok r ∧ Loads serde e.post e.act.path r := by
  have hstart := start_of_mem hserde run he
  have hanswered : ∃ r, answer home serde e = .ok r := by
    by_cases hlegacy : HasLegacy home e.pre
    · have hm : Migrates home e.pre e.act.path := ⟨hmissing, hlegacy⟩
      obtain ⟨legacy, hmem, -⟩ := hlegacy
      obtain ⟨r, hr⟩ := hcopies.readable e he hm legacy hmem
      exact ⟨r, hstart.of_migrates hm hmem hr⟩
    · exact hstart.of_generates ⟨hmissing, hlegacy⟩
  obtain ⟨r, hans⟩ := hanswered
  exact ⟨r, hans, hstart.loads hans⟩

theorem keepsIdentities_of_copiesOnce (hserde : serde.RoundTrips)
    (run : Run (machine home serde) s h t) (hcopies : CopiesOnce home serde h) :
    KeepsIdentities home serde s h where
  existing e he bytes hfile := by
    have hfound : e.pre.entry e.act.path ≠ none := by
      rw [hfile]
      simp
    obtain ⟨hans, hpost⟩ := (start_of_mem hserde run he).of_found hfound
    refine ⟨hpost, fun r hr => ?_⟩
    obtain ⟨bytes', hfile', hholds⟩ := load_eq_ok.1 (hans.symm.trans hr)
    cases hfile.symm.trans hfile'
    exact hholds
  created := by
    rintro h₁ e h₂ rfl hmissing
    obtain ⟨r, hans, hloads⟩ :=
      created_of_copiesOnce hserde run hcopies (show e ∈ h₁ ++ e :: h₂ by simp) hmissing
    refine ⟨r, hans, ?_, fun e' he' hpath => ?_⟩
    · obtain ⟨bytes, hfile, -⟩ := hloads
      exact FileSystem.isFile_iff.2 ⟨bytes, hfile⟩
    · exact answer_later hserde run hloads he' hpath
  apart := by
    intro e he e' he' r r' hne hown hans hans'
    have hdist := distinct hserde run
    have hloads := loads_of_answer hserde run he hans
    have hloads' := loads_of_answer hserde run he' hans'
    obtain ⟨hp, hlegacy, hdefault⟩ := hown e.act.path (by simp)
    obtain ⟨hp', hlegacy', hdefault'⟩ := hown e'.act.path (by simp)
    by_cases hm : Migrated home h e.act.path
    · by_cases hm' : Migrated home h e'.act.path
      · obtain ⟨e₁, he₁, hpath, hcopy⟩ := hm
        obtain ⟨e₂, he₂, hpath', hcopy'⟩ := hm'
        have hother := fun hd => hdefault ⟨hd, e₁, he₁, hpath, hcopy⟩
        have hother' := fun hd => hdefault' ⟨hd, e₂, he₂, hpath', hcopy'⟩
        rw [← hpath] at hcopy hother hne
        rw [← hpath'] at hcopy' hother' hne
        exact absurd (hcopies.single e₁ he₁ e₂ he₂ hcopy hcopy' hother hother') hne
      · exact (hdist _ _ r' r hp' hlegacy' hm' hne.symm hloads' hloads).symm
    · exact hdist _ _ r r' hp hlegacy hm hne hloads hloads'

/-- A path that the legacy file is copied to is not the legacy path, and had no file. -/
theorem own_of_migrates (hserde : serde.RoundTrips) (run : Run (machine home serde) s h t)
    (he : e ∈ h) (hm : Migrates home e.pre e.act.path) (hother : ¬ IsDefault home e.act.path) :
    s.entry e.act.path = none ∧ e.act.path ∉ home.map legacyPath ∧
      ¬ (IsDefault home e.act.path ∧ Migrated home h e.act.path) := by
  refine ⟨missing_at_start hserde run he hm.1, fun hlegacy => ?_, fun hd => hother hd.1⟩
  obtain ⟨hmissing, legacy, hmem, hthere⟩ := hm
  obtain rfl := Option.mem_unique hlegacy hmem
  rw [has_eq_false.2 hmissing] at hthere
  cases hthere

/-- Copies at two paths have the same identity. -/
theorem not_keepsIdentities_of_migrates {e' : Event FileSystem Call} (hserde : serde.RoundTrips)
    (run : Run (machine home serde) s h t) (he : e ∈ h) (he' : e' ∈ h)
    (hm : Migrates home e.pre e.act.path) (hm' : Migrates home e'.pre e'.act.path)
    (hother : ¬ IsDefault home e.act.path) (hother' : ¬ IsDefault home e'.act.path)
    (hne : e.act.path ≠ e'.act.path) : ¬ KeepsIdentities home serde s h := by
  intro hkeeps
  have hreturned : ∀ e ∈ h, Migrates home e.pre e.act.path → ∃ r, answer home serde e = .ok r ∧
      ∃ legacy ∈ home.map legacyPath, Loads serde t legacy r := by
    intro e he hm
    have hstart := start_of_mem hserde run he
    obtain ⟨h₁, h₂, rfl⟩ := List.append_of_mem he
    obtain ⟨r, hans, -⟩ := hkeeps.created h₁ e h₂ rfl hm.1
    obtain ⟨legacy, hmem, hloads⟩ := hstart.loads_legacy hm hans
    exact ⟨r, hans, legacy, hmem, hloads.kept hserde run.rest⟩
  obtain ⟨r, hans, legacy, hmem, hloads⟩ := hreturned e he hm
  obtain ⟨r', hans', legacy', hmem', hloads'⟩ := hreturned e' he' hm'
  obtain rfl := Option.mem_unique hmem hmem'
  obtain rfl := hloads.unique hloads'
  refine hkeeps.apart e he e' he' r r hne (fun p hp => ?_) hans hans' rfl
  rcases List.mem_pair.1 hp with rfl | rfl
  · exact own_of_migrates hserde run he hm hother
  · exact own_of_migrates hserde run he' hm' hother'

theorem copiesOnce_of_keepsIdentities (hserde : serde.RoundTrips)
    (run : Run (machine home serde) s h t) (hkeeps : KeepsIdentities home serde s h) :
    CopiesOnce home serde h where
  readable e he hm legacy hlegacy := by
    have hstart := start_of_mem hserde run he
    obtain ⟨h₁, h₂, rfl⟩ := List.append_of_mem he
    obtain ⟨r, hans, -⟩ := hkeeps.created h₁ e h₂ rfl hm.1
    obtain ⟨legacy', hmem, hloads⟩ := hstart.loads_legacy hm hans
    obtain rfl := Option.mem_unique hlegacy hmem
    exact ⟨r, hloads⟩
  single e he e' he' hm hm' hother hother' := by
    by_contra hne
    exact not_keepsIdentities_of_migrates hserde run he he' hm hm' hother hother' hne hkeeps

/-- **Identity files are stable and not shared** in exactly the runs that copy no legacy file that
cannot be read, and that copy it to one path at most besides the default one. -/
theorem keepsIdentities_iff (hserde : serde.RoundTrips) (run : Run (machine home serde) s h t) :
    KeepsIdentities home serde s h ↔ CopiesOnce home serde h :=
  ⟨copiesOnce_of_keepsIdentities hserde run, keepsIdentities_of_copiesOnce hserde run⟩

/-! ## An upgraded node -/

namespace Deployment

def opening : List Char := "\x7b\n  \"ecdh_seed\": \"".toList

def between : List Char := "\",\n  \"identity_seed\": \"".toList

/-- The text of the file, as `serde_json` lays it out. -/
def layout (onDisk : OnDiskIdentity) : List Char :=
  opening ++ (onDisk.ecdhSeed.toList ++
    (between ++ (onDisk.identitySeed.toList ++ "\"\n\x7d".toList)))

/-- The texts of seeds, written and read. -/
def json : IdentityJson where
  toVecPretty onDisk := .ok (Text.utf8 (layout onDisk))
  fromSlice bytes :=
    let text := Text.fromUtf8Lossy bytes
    let onDisk := ⟨.ofList ((text.drop 18).take 64), .ofList ((text.drop 105).take 64)⟩
    if Text.utf8 (layout onDisk) = bytes then .ok onDisk else .error "not a file of seeds"

theorem json_roundTrips : json.RoundTrips := by
  intro ecdhSeed identitySeed onDisk
  refine ⟨_, rfl, ?_⟩
  have hecdh : onDisk.ecdhSeed.toList = Text.hexEncode ecdhSeed.toList := String.toList_ofList
  have hid : onDisk.identitySeed.toList = Text.hexEncode identitySeed.toList := String.toList_ofList
  have hlength : ∀ seed : Bytes keySize, (Text.hexEncode seed.toList).length = 64 := by
    intro seed
    rw [Text.length_hexEncode, seed.length_toList]
    rfl
  have hopening : opening.length = 18 := by decide
  have hbetween : between.length = 23 := by decide
  have hfirst : ((layout onDisk).drop 18).take 64 = onDisk.ecdhSeed.toList :=
    take_drop_field hopening (by rw [hecdh, hlength])
  have hsecond : ((layout onDisk).drop 105).take 64 = onDisk.identitySeed.toList := by
    have hskipped : (opening ++ onDisk.ecdhSeed.toList ++ between).length = 105 := by
      rw [List.length_append, List.length_append, hopening, hbetween, hecdh, hlength]
    rw [layout, ← List.append_assoc, ← List.append_assoc]
    exact take_drop_field hskipped (by rw [hid, hlength])
  simp only [json, Text.fromUtf8Lossy_utf8, hfirst, hsecond, String.ofList_toList, if_true]

/-- The home directory. -/
def homeDir : Path := ["home", "op"]

def seed (b : UInt8) : Bytes keySize := .replicate keySize b

/-- The keys of the node before it was upgraded. -/
def keys : NodeKeys × NodeIdentity := (.fromSeed (seed 1), ⟨seed 2, by decide +kernel⟩)

def legacyJson : List UInt8 :=
  Text.utf8 (layout ⟨.ofList (Text.hexEncode (seed 1).toList),
    .ofList (Text.hexEncode (seed 2).toList)⟩)

/-- The files of the host: only the legacy one. -/
def upgraded : FileSystem :=
  (FileSystem.empty.withDirs (legacyPath homeDir).dropLast).put (legacyPath homeDir) legacyJson
    (by decide) (by decide)

theorem loads_upgraded : Loads json upgraded (legacyPath homeDir) keys := by
  obtain ⟨_, ⟨⟩, hholds⟩ := exists_holds json_roundTrips keys
  exact ⟨legacyJson, FileSystem.entry_put .., hholds⟩

/-- A start of the upgraded host at a path without a file returns the old keys. -/
theorem exists_copied {h : List (Event FileSystem Call)} {t : FileSystem}
    (run : Run (machine (some homeDir) json) upgraded h t) (hmissing : t.entry c.path = none)
    (hopen : t.Open c.path.dropLast) :
    ∃ e, Run (machine (some homeDir) json) upgraded (h ++ [e]) e.post ∧ e.act = c ∧
      Migrates (some homeDir) e.pre e.act.path ∧ answer (some homeDir) json e = .ok keys ∧
      t.Adds e.post c.path := by
  have hloads := loads_upgraded.kept json_roundTrips run
  have hlegacy : HasLegacy (some homeDir) t := by
    obtain ⟨bytes, hfile, -⟩ := hloads
    exact ⟨_, rfl, has_of_entry (by rw [hfile]; simp)⟩
  have hlegal : Legal (some homeDir) json t c :=
    { writable := fun _ => hopen
      valid := fun hg => absurd hlegacy hg.2
      fresh := fun hg => absurd hlegacy hg.2 }
  obtain ⟨e, run', rfl, rfl, -⟩ := run.exists_snoc hlegal
  have hm : Migrates (some homeDir) e.pre e.act.path := ⟨hmissing, hlegacy⟩
  have hstart := start_of_mem json_roundTrips run' (show e ∈ h ++ [e] by simp)
  exact ⟨e, run', rfl, hm, hstart.of_migrates hm rfl hloads, hstart.adds⟩

end Deployment

open Deployment

/-- **Two nodes share an identity**: after an upgrade, starts at two paths, neither of them the
default one, return the keys of the legacy file. -/
theorem legacy_identity_shared : ∃ e e' : Event FileSystem Call,
    Run (machine (some homeDir) json) upgraded [e, e'] e'.post ∧ json.RoundTrips ∧
    e.act = ⟨["srv", "a", "identity.json"], seed 3, seed 4⟩ ∧
    e'.act = ⟨["srv", "b", "identity.json"], seed 5, seed 6⟩ ∧
    answer (some homeDir) json e = .ok keys ∧ answer (some homeDir) json e' = .ok keys ∧
    ¬ KeepsIdentities (some homeDir) json upgraded [e, e'] := by
  obtain ⟨e, run, hact, hm, hans, hadds⟩ :=
    exists_copied (c := ⟨["srv", "a", "identity.json"], seed 3, seed 4⟩) .nil (by decide)
      (by decide)
  obtain ⟨e', run', hact', hm', hans', -⟩ :=
    exists_copied (c := ⟨["srv", "b", "identity.json"], seed 5, seed 6⟩) run
      (hadds.missing (by decide) (by decide)) (hadds.isOpen (by decide) (by decide))
  refine ⟨e, e', run', json_roundTrips, hact, hact', hans, hans', ?_⟩
  have hother : ¬ IsDefault (some homeDir) e.act.path := by
    rw [hact]
    exact fun h => absurd (Except.ok.inj h) (by decide)
  have hother' : ¬ IsDefault (some homeDir) e'.act.path := by
    rw [hact']
    exact fun h => absurd (Except.ok.inj h) (by decide)
  have hne : e.act.path ≠ e'.act.path := by
    rw [hact, hact']
    decide
  exact not_keepsIdentities_of_migrates json_roundTrips run' (by simp) (by simp) hm hm' hother
    hother' hne

/-- After an upgrade, starts at the default path keep the identity. -/
theorem keepsIdentities_upgraded : ∃ e e' : Event FileSystem Call,
    Run (machine (some homeDir) json) upgraded [e, e'] e'.post ∧
    (∀ e'' ∈ [e, e'], IsDefault (some homeDir) e''.act.path) ∧
    answer (some homeDir) json e = .ok keys ∧
    KeepsIdentities (some homeDir) json upgraded [e, e'] := by
  obtain ⟨e, run, hact, -, hans, -⟩ :=
    exists_copied (c := ⟨homeDir ++ [".fldx", "node", "identity.json"], seed 3, seed 4⟩) .nil
      (by decide) (by decide)
  have hfound : e.post.entry e.act.path ≠ none := by
    obtain ⟨bytes, hfile, -⟩ := loads_of_answer json_roundTrips run (by simp) hans
    rw [hfile]
    simp
  have hlegal : Legal (some homeDir) json e.post ⟨e.act.path, seed 5, seed 6⟩ :=
    { writable := fun hmissing => absurd hmissing hfound
      valid := fun hg => absurd hg.1 hfound
      fresh := fun hg => absurd hg.1 hfound }
  obtain ⟨e', run', -, hact', -⟩ := run.exists_snoc hlegal
  have hdefault : ∀ e'' ∈ [e, e'], IsDefault (some homeDir) e''.act.path := by
    intro e'' he''
    rcases List.mem_pair.1 he'' with rfl | rfl
    · rw [hact]
      rfl
    · rw [hact', hact]
      rfl
  refine ⟨e, e', run', hdefault, hans, (keepsIdentities_iff json_roundTrips run').2 ⟨?_, ?_⟩⟩
  · rintro e'' he'' - _ ⟨⟩
    obtain ⟨_, run₁⟩ := run'.exists_upTo he''
    exact ⟨keys, loads_upgraded.kept json_roundTrips run₁⟩
  · intro e₁ he₁ _ _ _ _ hother
    exact absurd (hdefault e₁ he₁) hother

end Flodex.Node.Identity
