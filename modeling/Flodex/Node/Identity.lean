import Flodex.Crypto.Keys
import Flodex.Foundations.FileSystem
import Flodex.Foundations.Text

/-!
# The identity file

A node keeps the seeds of its two keypairs in a file, which is written by the first start at a path
and read by the others. A start at a path without a file copies the file of the legacy path there,
if there is one: whatever the path is, and whatever the legacy file holds.

`Start` is all that a start can do (`start_spec`). A path stands for the file it leads to, and file
modes are left out.
-/

namespace Flodex.Node.Identity

open FileM

/-- The content of the file. -/
structure OnDiskIdentity where
  ecdhSeed : String
  identitySeed : String
  deriving DecidableEq

/-- `serde_json`, for the content of the file. -/
structure IdentityJson where
  toVecPretty : OnDiskIdentity → Except String (List UInt8)
  fromSlice : List UInt8 → Except String OnDiskIdentity

/-- What is written for two seeds is read back. -/
def IdentityJson.RoundTrips (serde : IdentityJson) : Prop :=
  ∀ ecdhSeed identitySeed : Bytes keySize,
    let onDisk := ⟨.ofList (Text.hexEncode ecdhSeed.toList),
      .ofList (Text.hexEncode identitySeed.toList)⟩
    ∃ json, serde.toVecPretty onDisk = .ok json ∧ serde.fromSlice json = .ok onDisk

inductive Cause
  | file (e : FileError)
  | json (e : String)
  | hex (e : Text.FromHexError)
  | notAScalar
  | message (text : String)
  | panic (text : String)
  deriving DecidableEq

/-- An error, with the context it is reported in. -/
structure Error where
  context : Option String
  cause : Cause
  deriving DecidableEq

/-! ## The code -/

def legacyPath (home : Path) : Path := home ++ [".flodex", "node", "identity.json"]

/-- `default_path`, by the value of `FLDX_NODE_IDENTITY_PATH` and the home directory. -/
def defaultPath (identityPath home : Option Path) : Except Error Path :=
  match identityPath with
  | some p => .ok p
  | none => do
    let home ← orThrow home ⟨none, .message "could not resolve home dir"⟩
    pure (home ++ [".fldx", "node", "identity.json"])

def createParent (path : Path) : FileM Error Unit := do
  let some parent := path.parent | return
  apply fun fs => (fs.createDirAll parent).mapError fun e =>
    ⟨some s!"creating {parent.display}", .file e⟩

/-- Whether a migration ran. -/
def migrateLegacyIdentity (home : Option Path) (target : Path) : FileM Error Bool := do
  if (← get).has target then return false
  let some home := home | return false
  let legacy := legacyPath home
  if (← get).has legacy = false then return false
  createParent target
  apply fun fs => (fs.copy legacy target).mapError fun e =>
    ⟨some s!"migrating legacy identity {legacy.display} → {target.display}", .file e⟩
  return true

def parseSeed (s field : String) : Except Error (Bytes keySize) := do
  let bytes ← (Text.hexDecode (Text.utf8 s.toList)).mapError fun e =>
    ⟨some s!"hex-decoding {field}", .hex e⟩
  orThrow (Bytes.ofList? keySize bytes)
    ⟨none, .message s!"{field} must be {keySize} bytes after hex-decode"⟩

variable (home : Option Path) (serde : IdentityJson) (path : Path)

def load (fs : FileSystem) : Except Error (NodeKeys × NodeIdentity) := do
  let bytes ← (fs.read path).mapError fun e =>
    ⟨some s!"reading identity file {path.display}", .file e⟩
  let onDisk ← (serde.fromSlice bytes).mapError fun e =>
    ⟨some s!"parsing identity file {path.display}", .json e⟩
  let ecdhSeed ← parseSeed onDisk.ecdhSeed "ecdh_seed"
  let keys := NodeKeys.fromSeed ecdhSeed
  let identitySeed ← parseSeed onDisk.identitySeed "identity_seed"
  let identity ← orThrow (NodeIdentity.fromSeed identitySeed)
    ⟨some "identity_seed is not a valid secp256k1 scalar", .notAScalar⟩
  pure (keys, identity)

def save (keys : NodeKeys) (identity : NodeIdentity) : FileM Error Unit := do
  createParent path
  let onDisk := ⟨.ofList (Text.hexEncode keys.seed.toList),
    .ofList (Text.hexEncode identity.seed.toList)⟩
  let json ← query fun _ => (serde.toVecPretty onDisk).mapError fun e => ⟨none, .json e⟩
  apply fun fs => (fs.write path json).mapError fun e =>
    ⟨some s!"writing identity file {path.display}", .file e⟩

/-- A start at a path, with the random seeds that it draws if it needs them. -/
structure Call where
  path : Path
  ecdhSeed : Bytes keySize
  identitySeed : Bytes keySize

def loadOrGenerate (c : Call) : FileM Error (NodeKeys × NodeIdentity) := do
  let _ ← migrateLegacyIdentity home c.path
  if (← get).has c.path then
    query (load serde c.path)
  else
    let keys := NodeKeys.fromSeed c.ecdhSeed
    let identity ← query fun _ => orThrow (NodeIdentity.fromSeed c.identitySeed)
      ⟨none, .panic "random seed is a valid scalar with overwhelming probability"⟩
    save serde c.path keys identity
    return (keys, identity)

/-! ## What a file holds -/

/-- The bytes are those of a file with the seeds of the keys. -/
def Holds (bytes : List UInt8) (r : NodeKeys × NodeIdentity) : Prop :=
  ∃ onDisk, serde.fromSlice bytes = .ok onDisk ∧
    Text.hexDecode (Text.utf8 onDisk.ecdhSeed.toList) = .ok r.1.seed.toList ∧
    Text.hexDecode (Text.utf8 onDisk.identitySeed.toList) = .ok r.2.seed.toList

/-- The file at the path has the seeds of the keys. -/
def Loads (fs : FileSystem) (p : Path) (r : NodeKeys × NodeIdentity) : Prop :=
  ∃ bytes, fs.entry p = some (.file bytes) ∧ Holds serde bytes r

/-! ## One start -/

/-- There is a legacy file, or a directory in its place. -/
def HasLegacy (fs : FileSystem) : Prop := ∃ legacy ∈ home.map legacyPath, fs.has legacy

/-- A start at the path copies the legacy file. -/
def Migrates (fs : FileSystem) (p : Path) : Prop := fs.entry p = none ∧ HasLegacy home fs

/-- A start at the path makes new keys. -/
def Generates (fs : FileSystem) (p : Path) : Prop := fs.entry p = none ∧ ¬ HasLegacy home fs

/-- What is written can be written, and new seeds are valid, and no file holds that of the
identity. -/
structure Legal (fs : FileSystem) (c : Call) : Prop where
  writable : fs.entry c.path = none → fs.Open c.path.dropLast
  valid : Generates home fs c.path → IsScalar c.identitySeed
  fresh : Generates home fs c.path → ∀ p r, Loads serde fs p r → r.2.seed ≠ c.identitySeed

/-- All that a start can do. -/
inductive Start (fs : FileSystem) (c : Call) :
    Except Error (NodeKeys × NodeIdentity) → FileSystem → Prop
  | loaded (found : fs.entry c.path ≠ none) : Start fs c (load serde c.path fs) fs
  | migrated {legacy : Path} {bytes : List UInt8} {fs' : FileSystem}
    (migrates : Migrates home fs c.path) (isLegacy : legacy ∈ home.map legacyPath)
    (file : fs.entry legacy = some (.file bytes)) (adds : fs.Adds fs' c.path)
    (copied : fs'.entry c.path = some (.file bytes)) : Start fs c (load serde c.path fs') fs'
  | failed {legacy : Path} {e : Error} {fs' : FileSystem}
    (migrates : Migrates home fs c.path) (isLegacy : legacy ∈ home.map legacyPath)
    (dir : fs.entry legacy = some .dir) (adds : fs.Adds fs' c.path)
    (missing : fs'.entry c.path = none) : Start fs c (.error e) fs'
  | generated {identity : NodeIdentity} {bytes : List UInt8} {fs' : FileSystem}
    (generates : Generates home fs c.path) (seed : identity.seed = c.identitySeed)
    (adds : fs.Adds fs' c.path) (saved : fs'.entry c.path = some (.file bytes))
    (holds : Holds serde bytes (.fromSeed c.ecdhSeed, identity)) :
    Start fs c (.ok (.fromSeed c.ecdhSeed, identity)) fs'

variable {home serde path} {fs fs' : FileSystem} {p legacy : Path} {c : Call} {bytes : List UInt8}
  {r r' : NodeKeys × NodeIdentity} {x : Except Error (NodeKeys × NodeIdentity)}

theorem has_eq_false : fs.has p = false ↔ fs.entry p = none := by
  rw [FileSystem.has, Option.isSome_eq_false_iff, Option.isNone_iff_eq_none]

theorem parseSeed_eq_ok {text field : String} {seed : Bytes keySize} :
    parseSeed text field = .ok seed ↔
      Text.hexDecode (Text.utf8 text.toList) = .ok seed.toList := by
  simp only [parseSeed, bind_eq_ok, mapError_eq_ok, orThrow_eq_ok, Bytes.ofList?_eq_some,
    exists_eq_right]

/-- A file is loaded if it has the seeds of an identity. -/
theorem load_eq_ok : load serde p fs = .ok r ↔ Loads serde fs p r := by
  simp only [load, Loads, Holds, bind_eq_ok, mapError_eq_ok, orThrow_eq_ok, pure_eq_ok,
    FileSystem.read_eq_ok, parseSeed_eq_ok, NodeIdentity.fromSeed_eq_some]
  constructor
  · rintro ⟨bytes, hfile, onDisk, hjson, ecdhSeed, hecdh, identitySeed, hid, identity, rfl, rfl⟩
    exact ⟨bytes, hfile, onDisk, hjson, hecdh, hid⟩
  · rintro ⟨bytes, hfile, onDisk, hjson, hecdh, hid⟩
    exact ⟨bytes, hfile, onDisk, hjson, _, hecdh, _, hid, _, rfl, rfl⟩

theorem Loads.unique (h : Loads serde fs p r) (h' : Loads serde fs p r') : r = r' :=
  Except.ok.inj ((load_eq_ok.2 h).symm.trans (load_eq_ok.2 h'))

theorem exec_createParent (hp : fs.entry p = none) (hopen : fs.Open p.dropLast) :
    (createParent p).exec fs = (.ok (), fs.withDirs p.dropLast) := by
  have hne : p ≠ [] := by
    rintro rfl
    rw [fs.root] at hp
    cases hp
  have hcreate := (FileSystem.store_spec hp hopen).1
  have hparent : p.parent = some p.dropLast := if_neg hne
  rw [createParent, hparent]
  refine exec_apply_of_ok ?_
  rw [hcreate]
  rfl

theorem has_of_entry (h : fs.entry p ≠ none) : fs.has p = true := by
  rw [← Bool.not_eq_false]
  exact fun hhas => h (has_eq_false.1 hhas)

theorem migrate_of_has (h : fs.entry p ≠ none) :
    (migrateLegacyIdentity home p).exec fs = (.ok false, fs) := by
  unfold migrateLegacyIdentity
  rw [exec_get_bind, if_pos (has_of_entry h), exec_pure]

theorem migrate_of_generates (h : Generates home fs p) :
    (migrateLegacyIdentity home p).exec fs = (.ok false, fs) := by
  obtain ⟨hmissing, hnone⟩ := h
  have hhas : ¬ fs.has p = true := by
    rw [has_eq_false.2 hmissing]
    simp
  unfold migrateLegacyIdentity
  rw [exec_get_bind, if_neg hhas]
  cases home with
  | none => exact exec_pure
  | some home =>
    have hlegacy : fs.has (legacyPath home) = false := by
      rw [← Bool.not_eq_true]
      exact fun h => hnone ⟨_, rfl, h⟩
    simp only [exec_get_bind, if_pos hlegacy, exec_pure]

/-- The directories are made, and the rest depends on what there is at the legacy path. -/
theorem migrate_of_migrates (h : Migrates home fs p) (hopen : fs.Open p.dropLast)
    (hlegacy : legacy ∈ home.map legacyPath) :
    (∀ bytes, fs.entry legacy = some (.file bytes) →
      ∃ fs', (migrateLegacyIdentity home p).exec fs = (.ok true, fs') ∧ fs.Adds fs' p ∧
        fs'.entry p = some (.file bytes)) ∧
    (fs.entry legacy = some .dir →
      ∃ e fs', (migrateLegacyIdentity home p).exec fs = (.error e, fs') ∧ fs.Adds fs' p ∧
        fs'.entry p = none) := by
  obtain ⟨hmissing, legacy', hlegacy', hthere⟩ := h
  obtain rfl := Option.mem_unique hlegacy hlegacy'
  obtain ⟨dir, rfl, rfl⟩ := Option.map_eq_some_iff.1 hlegacy
  have hhas : ¬ fs.has p = true := by
    rw [has_eq_false.2 hmissing]
    simp
  have hthere' : ¬ fs.has (legacyPath dir) = false := by
    rw [hthere]
    simp
  obtain ⟨-, hdirs, hmissing', hstore⟩ := FileSystem.store_spec hmissing hopen
  unfold migrateLegacyIdentity
  rw [exec_get_bind, if_neg hhas]
  simp only [exec_get_bind, if_neg hthere']
  rw [exec_bind_of_ok (exec_createParent hmissing hopen)]
  refine ⟨fun bytes hfile => ?_, fun hdir => ?_⟩
  · obtain ⟨fs', hwrite, hadds, hentry⟩ := hstore bytes
    have hcopy := FileSystem.copy_eq_ok.2 ⟨bytes, hdirs.kept _ _ hfile, hwrite⟩
    refine ⟨fs', ?_, hadds, hentry⟩
    rw [exec_bind_of_ok (exec_apply_of_ok (by rw [hcopy]; rfl)), exec_pure]
  · have hcopy : (fs.withDirs p.dropLast).copy (legacyPath dir) p = .error .invalidInput := by
      rw [FileSystem.copy, hdirs.kept _ _ hdir]
    exact ⟨_, _, exec_bind_of_error (exec_apply_of_error (by rw [hcopy]; rfl)), hdirs, hmissing'⟩

theorem exists_holds (hserde : serde.RoundTrips) (r : NodeKeys × NodeIdentity) :
    ∃ json, serde.toVecPretty ⟨.ofList (Text.hexEncode r.1.seed.toList),
      .ofList (Text.hexEncode r.2.seed.toList)⟩ = .ok json ∧ Holds serde json r := by
  obtain ⟨json, hjson, hback⟩ := hserde r.1.seed r.2.seed
  refine ⟨json, hjson, _, hback, ?_, ?_⟩
  · rw [String.toList_ofList, Text.hexDecode_hexEncode]
  · rw [String.toList_ofList, Text.hexDecode_hexEncode]

/-- A file that is saved has the seeds of the keys. -/
theorem exec_save (hserde : serde.RoundTrips) (hp : fs.entry p = none)
    (hopen : fs.Open p.dropLast) (r : NodeKeys × NodeIdentity) :
    ∃ fs' json, (save serde p r.1 r.2).exec fs = (.ok (), fs') ∧ fs.Adds fs' p ∧
      fs'.entry p = some (.file json) ∧ Holds serde json r := by
  obtain ⟨json, hjson, hholds⟩ := exists_holds hserde r
  obtain ⟨-, -, -, hstore⟩ := FileSystem.store_spec hp hopen
  obtain ⟨fs', hwrite, hadds, hentry⟩ := hstore json
  refine ⟨fs', json, ?_, hadds, hentry, hholds⟩
  rw [save, exec_bind_of_ok (exec_createParent hp hopen), exec_query_bind (by rw [hjson]; rfl)]
  exact exec_apply_of_ok (by rw [hwrite]; rfl)

theorem start_of_migrates (hopen : fs.Open c.path.dropLast) (hm : Migrates home fs c.path) :
    Start home serde fs c ((loadOrGenerate home serde c).exec fs).1
      ((loadOrGenerate home serde c).exec fs).2 := by
  have hm' := hm
  obtain ⟨-, legacy, hmem, hthere⟩ := hm'
  obtain ⟨hcopied, hdir⟩ := migrate_of_migrates hm hopen hmem
  obtain ⟨e, hentry⟩ := Option.isSome_iff_exists.1 hthere
  cases e with
  | file bytes =>
    obtain ⟨fs', hexec, hadds, hcopy⟩ := hcopied bytes hentry
    have hhas : fs'.has c.path = true := has_of_entry (by rw [hcopy]; simp)
    rw [loadOrGenerate, exec_bind_of_ok hexec, exec_get_bind, if_pos hhas, exec_query]
    exact .migrated hm hmem hentry hadds hcopy
  | dir =>
    obtain ⟨e, fs', hexec, hadds, hnone⟩ := hdir hentry
    rw [loadOrGenerate, exec_bind_of_error hexec]
    exact .failed hm hmem hentry hadds hnone

theorem start_of_generates (hserde : serde.RoundTrips) (hopen : fs.Open c.path.dropLast)
    (hg : Generates home fs c.path) (hvalid : IsScalar c.identitySeed) :
    Start home serde fs c ((loadOrGenerate home serde c).exec fs).1
      ((loadOrGenerate home serde c).exec fs).2 := by
  have hhas : ¬ fs.has c.path = true := by
    rw [has_eq_false.2 hg.1]
    simp
  have hseed : NodeIdentity.fromSeed c.identitySeed = some ⟨c.identitySeed, hvalid⟩ :=
    NodeIdentity.fromSeed_eq_some.2 rfl
  obtain ⟨fs', json, hsave, hadds, hentry, hholds⟩ := exec_save hserde hg.1 hopen
    (.fromSeed c.ecdhSeed, ⟨c.identitySeed, hvalid⟩)
  have hexec : (loadOrGenerate home serde c).exec fs =
      (.ok (.fromSeed c.ecdhSeed, ⟨c.identitySeed, hvalid⟩), fs') := by
    rw [loadOrGenerate, exec_bind_of_ok (migrate_of_generates hg), exec_get_bind, if_neg hhas,
      exec_query_bind (by rw [hseed]; rfl), exec_bind_of_ok hsave, exec_pure]
  rw [hexec]
  exact .generated hg rfl hadds hentry hholds

/-- **One start**, when what it writes can be written. -/
theorem start_spec (hserde : serde.RoundTrips) (legal : Legal home serde fs c) :
    Start home serde fs c ((loadOrGenerate home serde c).exec fs).1
      ((loadOrGenerate home serde c).exec fs).2 := by
  by_cases hmissing : fs.entry c.path = none
  · have hopen := legal.writable hmissing
    by_cases hlegacy : HasLegacy home fs
    · exact start_of_migrates hopen ⟨hmissing, hlegacy⟩
    · have hg : Generates home fs c.path := ⟨hmissing, hlegacy⟩
      exact start_of_generates hserde hopen hg (legal.valid hg)
  · rw [loadOrGenerate, exec_bind_of_ok (migrate_of_has hmissing), exec_get_bind,
      if_pos (has_of_entry hmissing), exec_query]
    exact .loaded hmissing

theorem Start.adds (h : Start home serde fs c x fs') : fs.Adds fs' c.path := by
  cases h with
  | loaded => exact FileSystem.adds_refl fs c.path
  | migrated _ _ _ adds => exact adds
  | failed _ _ _ adds => exact adds
  | generated _ _ adds => exact adds

/-- The keys that are returned are those of the file. -/
theorem Start.loads (h : Start home serde fs c x fs') (hx : x = .ok r) :
    Loads serde fs' c.path r := by
  cases h with
  | loaded => exact load_eq_ok.1 hx
  | migrated => exact load_eq_ok.1 hx
  | failed => cases hx
  | generated _ _ _ saved holds =>
    cases hx
    exact ⟨_, saved, holds⟩

theorem Start.of_found (h : Start home serde fs c x fs') (hfound : fs.entry c.path ≠ none) :
    x = load serde c.path fs ∧ fs' = fs := by
  cases h with
  | loaded => exact ⟨rfl, rfl⟩
  | migrated migrates => exact absurd migrates.1 hfound
  | failed migrates => exact absurd migrates.1 hfound
  | generated generates => exact absurd generates.1 hfound

/-- The keys of a copy are those of the legacy file. -/
theorem Start.loads_legacy (h : Start home serde fs c x fs') (hm : Migrates home fs c.path)
    (hx : x = .ok r) : ∃ legacy ∈ home.map legacyPath, Loads serde fs legacy r := by
  cases h with
  | loaded found => exact absurd hm.1 found
  | migrated _ isLegacy file _ copied =>
    obtain ⟨bytes, hbytes, hholds⟩ := load_eq_ok.1 hx
    cases copied.symm.trans hbytes
    exact ⟨_, isLegacy, _, file, hholds⟩
  | failed => cases hx
  | generated generates => exact absurd hm.2 generates.2

/-- A copy of a file that can be read is read. -/
theorem Start.of_migrates (h : Start home serde fs c x fs') (hm : Migrates home fs c.path)
    (hlegacy : legacy ∈ home.map legacyPath) (hloads : Loads serde fs legacy r) : x = .ok r := by
  obtain ⟨bytes, hfile, hholds⟩ := hloads
  cases h with
  | loaded found => exact absurd hm.1 found
  | migrated _ isLegacy file _ copied =>
    obtain rfl := Option.mem_unique hlegacy isLegacy
    cases file.symm.trans hfile
    exact load_eq_ok.2 ⟨_, copied, hholds⟩
  | failed _ isLegacy dir =>
    obtain rfl := Option.mem_unique hlegacy isLegacy
    cases dir.symm.trans hfile
  | generated generates => exact absurd hm.2 generates.2

theorem Start.of_generates (h : Start home serde fs c x fs') (hg : Generates home fs c.path) :
    ∃ r, x = .ok r := by
  cases h with
  | loaded found => exact absurd hg.1 found
  | migrated migrates => exact absurd migrates.2 hg.2
  | failed migrates => exact absurd migrates.2 hg.2
  | generated => exact ⟨_, rfl⟩

/-- What a file besides the new one holds, it held before. -/
theorem Loads.of_adds (h : Loads serde fs' p r) (hadds : fs.Adds fs' c.path) (hne : p ≠ c.path) :
    Loads serde fs p r := by
  obtain ⟨bytes, hfile, hholds⟩ := h
  exact ⟨bytes, hadds.file hfile hne, hholds⟩

/-- **Where the keys of a file are from**: it had them before, or it is new, and they are those of
the legacy file or the identity is the one of the seed. -/
theorem Start.loads_cases (h : Start home serde fs c x fs') (hloads : Loads serde fs' p r) :
    Loads serde fs p r ∨ p = c.path ∧
      (Migrates home fs c.path ∧ (∃ legacy ∈ home.map legacyPath, Loads serde fs legacy r) ∨
        Generates home fs c.path ∧ r.2.seed = c.identitySeed) := by
  by_cases hp : p = c.path
  · subst hp
    cases h with
    | loaded => exact .inl hloads
    | migrated migrates isLegacy file _ copied =>
      obtain ⟨bytes, hfile, hholds⟩ := hloads
      cases copied.symm.trans hfile
      exact .inr ⟨rfl, .inl ⟨migrates, _, isLegacy, _, file, hholds⟩⟩
    | failed _ _ _ _ missing =>
      obtain ⟨bytes, hfile, -⟩ := hloads
      cases missing.symm.trans hfile
    | generated generates seed _ saved holds =>
      rw [hloads.unique ⟨_, saved, holds⟩]
      exact .inr ⟨rfl, .inr ⟨generates, seed⟩⟩
  · exact .inl (hloads.of_adds h.adds hp)

end Flodex.Node.Identity
