import Flodex.Foundations.Checked
import Mathlib.Data.List.Infix

/-!
# Files in directories

A file system, seen by its paths: a path is the list of the names on the way from the root, and what
there is at a path is in directories all the way. The operations are those of programs that keep a
file: make the directories above it, write it, copy it, read it.

`store_spec` is the rule for a new file: with the directories above it made, writing it succeeds, if
there is no file in the way, and leaves everything else as it is. `FileM` is for programs of several
operations, each of which may fail.
-/

namespace Flodex

/-- The names on the way from the root. -/
abbrev Path := List String

namespace Path

def parent (p : Path) : Option Path := if p = [] then none else some p.dropLast

def display (p : Path) : String := "/" ++ "/".intercalate p

end Path

/-- What there is at a path. -/
inductive Entry
  | dir
  | file (bytes : List UInt8)
  deriving DecidableEq

/-- A file system: the entries at the paths, each in a directory. -/
@[ext] structure FileSystem where
  entry : Path → Option Entry
  root : entry [] = some .dir
  parent : ∀ p name, (entry (p ++ [name])).isSome → entry p = some .dir

/-- Why an operation fails. -/
inductive FileError
  | notFound
  | alreadyExists
  | notADirectory
  | isADirectory
  | invalidInput
  deriving DecidableEq

namespace FileSystem

variable (fs : FileSystem) (p q : Path)

/-! ## The operations -/

/-- `exists`: whether there is anything. -/
def has : Bool := (fs.entry p).isSome

def isFile : Bool :=
  match fs.entry p with
  | some (.file _) => true
  | _ => false

/-- The error for a path that there is nothing at. -/
def missing : FileError := if ∃ q ∈ p.inits, fs.isFile q then .notADirectory else .notFound

def read : Except FileError (List UInt8) :=
  match fs.entry p with
  | some (.file bytes) => .ok bytes
  | some .dir => .error .isADirectory
  | none => .error (fs.missing p)

/-- The directories down to a path. -/
def withDirs : FileSystem where
  entry q := if q <+: p then some .dir else fs.entry q
  root := if_pos p.nil_prefix
  parent q name h := by
    by_cases hq : q <+: p
    · exact if_pos hq
    · have hname : ¬ q ++ [name] <+: p := fun h => hq ((List.prefix_append ..).trans h)
      rw [if_neg hname] at h
      rw [if_neg hq]
      exact fs.parent q name h

def createDirAll : Except FileError FileSystem :=
  if ∃ q ∈ p.inits, fs.isFile q then
    .error (if fs.isFile p then .alreadyExists else .notADirectory)
  else .ok (fs.withDirs p)

/-- The file system with a file in a directory. -/
def put (bytes : List UInt8) (hdir : fs.entry p ≠ some .dir)
    (hparent : fs.entry p.dropLast = some .dir) : FileSystem where
  entry := Function.update fs.entry p (some (.file bytes))
  root := by
    have hne : [] ≠ p := fun h => hdir (h ▸ fs.root)
    rw [Function.update_of_ne hne]
    exact fs.root
  parent q name h := by
    by_cases hname : q ++ [name] = p
    · subst hname
      rw [List.dropLast_concat] at hparent
      rw [Function.update_of_ne (by simp)]
      exact hparent
    · rw [Function.update_of_ne hname] at h
      have hq := fs.parent q name h
      have hne : q ≠ p := by
        rintro rfl
        exact hdir hq
      rw [Function.update_of_ne hne]
      exact hq

def write (bytes : List UInt8) : Except FileError FileSystem :=
  if hdir : fs.entry p = some .dir then .error .isADirectory
  else if hparent : fs.entry p.dropLast = some .dir then .ok (fs.put p bytes hdir hparent)
  else .error (fs.missing p)

/-- Copy a file to another path. -/
def copy : Except FileError FileSystem :=
  match fs.entry p with
  | some (.file bytes) => fs.write q bytes
  | some .dir => .error .invalidInput
  | none => .error (fs.missing p)

/-- Only the root. -/
def empty : FileSystem where
  entry p := if p = [] then some .dir else none
  root := rfl
  parent p name h := by simp at h

/-! ## What they do -/

variable {fs p q} {fs' : FileSystem} {bytes : List UInt8} {e : Entry}

theorem read_eq_ok : fs.read p = .ok bytes ↔ fs.entry p = some (.file bytes) := by
  unfold read
  cases h : fs.entry p with
  | none => simp
  | some e => cases e <;> simp

theorem isFile_iff : fs.isFile p ↔ ∃ bytes, fs.entry p = some (.file bytes) := by
  unfold isFile
  cases h : fs.entry p with
  | none => simp
  | some e => cases e <;> simp

/-- No file is in the way of a path. -/
def Open (fs : FileSystem) (p : Path) : Prop := ∀ q, q <+: p → fs.isFile q = false

theorem open_iff : fs.Open p ↔ ¬ ∃ q ∈ p.inits, fs.isFile q := by
  simp [Open]

instance : Decidable (fs.Open p) := decidable_of_iff _ open_iff.symm

theorem createDirAll_eq_ok : fs.createDirAll p = .ok fs' ↔ fs.Open p ∧ fs' = fs.withDirs p := by
  rw [createDirAll, open_iff]
  split_ifs with h
  · exact ⟨by rintro ⟨⟩, fun h' => absurd h h'.1⟩
  · rw [Except.ok.injEq, eq_comm]
    exact ⟨fun heq => ⟨h, heq⟩, And.right⟩

theorem write_eq_ok : fs.write p bytes = .ok fs' ↔ ∃ hdir hparent,
    fs' = fs.put p bytes hdir hparent := by
  unfold write
  split_ifs with hdir hparent
  · simp [hdir]
  · simp [hdir, hparent, eq_comm]
  · simp [hparent]

theorem copy_eq_ok : fs.copy p q = .ok fs' ↔
    ∃ bytes, fs.entry p = some (.file bytes) ∧ fs.write q bytes = .ok fs' := by
  unfold copy
  cases h : fs.entry p with
  | none => simp
  | some e => cases e <;> simp

/-- The entries are kept, and only the path and directories above it are new. -/
structure Adds (fs fs' : FileSystem) (p : Path) : Prop where
  kept : ∀ q e, fs.entry q = some e → fs'.entry q = some e
  only : ∀ q e, fs'.entry q = some e → fs.entry q = some e ∨ q = p ∨ q <+: p ∧ e = .dir

theorem adds_withDirs (h : fs.Open p) (hp : p <+: q) : Adds fs (fs.withDirs p) q where
  kept r e hr := by
    change (if r <+: p then some .dir else fs.entry r) = some e
    split_ifs with hrp
    · cases e with
      | dir => rfl
      | file bytes =>
        have hfile := isFile_iff.2 ⟨bytes, hr⟩
        rw [h r hrp] at hfile
        cases hfile
    · exact hr
  only r e hr := by
    change (if r <+: p then some .dir else fs.entry r) = some e at hr
    split_ifs at hr with hrp
    · exact .inr (.inr ⟨hrp.trans hp, (Option.some.inj hr).symm⟩)
    · exact .inl hr

theorem adds_put (hdir : fs.entry p ≠ some .dir) (hparent : fs.entry p.dropLast = some .dir)
    (hp : fs.entry p = none) : Adds fs (fs.put p bytes hdir hparent) p where
  kept q e hq := by
    have hne : q ≠ p := by
      rintro rfl
      rw [hp] at hq
      cases hq
    exact (Function.update_of_ne hne ..).trans hq
  only q e hq := by
    by_cases hne : q = p
    · exact .inr (.inl hne)
    · exact .inl ((Function.update_of_ne hne ..).symm.trans hq)

theorem entry_put (hdir : fs.entry p ≠ some .dir) (hparent : fs.entry p.dropLast = some .dir) :
    (fs.put p bytes hdir hparent).entry p = some (.file bytes) := Function.update_self ..

theorem Adds.trans {fs'' : FileSystem} (h : Adds fs fs' p) (h' : Adds fs' fs'' p) :
    Adds fs fs'' p where
  kept q e hq := h'.kept q e (h.kept q e hq)
  only q e hq := (h'.only q e hq).elim (h.only q e) .inr

theorem adds_refl (fs : FileSystem) (p : Path) : Adds fs fs p where
  kept _ _ := id
  only _ _ := .inl

/-- The files are those of before and the new one. -/
theorem Adds.file (h : Adds fs fs' p) (hq : fs'.entry q = some (.file bytes)) (hne : q ≠ p) :
    fs.entry q = some (.file bytes) := by
  rcases h.only q _ hq with hq | hq | ⟨-, hdir⟩
  · exact hq
  · exact absurd hq hne
  · cases hdir

theorem Adds.missing (h : Adds fs fs' p) (hq : fs.entry q = none) (hpq : ¬ q <+: p) :
    fs'.entry q = none := by
  by_contra hne
  obtain ⟨e, he⟩ := Option.ne_none_iff_exists'.1 hne
  rcases h.only q e he with hq' | rfl | ⟨hpre, -⟩
  · rw [hq] at hq'
    cases hq'
  · exact hpq List.prefix_rfl
  · exact hpq hpre

theorem Adds.isOpen (h : Adds fs fs' p) (hq : fs.Open q) (hpq : ¬ p <+: q) : fs'.Open q := by
  intro q' hq'
  by_contra hfile
  obtain ⟨bytes, hbytes⟩ := isFile_iff.1 (eq_true_of_ne_false hfile)
  have hne : q' ≠ p := by
    rintro rfl
    exact hpq hq'
  have hfile' := isFile_iff.2 ⟨bytes, h.file hbytes hne⟩
  rw [hq q' hq'] at hfile'
  cases hfile'

/-- **A new file is stored**: the directories above it are made, and then it is written. -/
theorem store_spec (hp : fs.entry p = none) (hopen : fs.Open p.dropLast) :
    fs.createDirAll p.dropLast = .ok (fs.withDirs p.dropLast) ∧
      Adds fs (fs.withDirs p.dropLast) p ∧ (fs.withDirs p.dropLast).entry p = none ∧
      ∀ bytes, ∃ fs', (fs.withDirs p.dropLast).write p bytes = .ok fs' ∧ Adds fs fs' p ∧
        fs'.entry p = some (.file bytes) := by
  have hadds := adds_withDirs hopen p.dropLast_prefix
  have hne : p ≠ [] := by
    rintro rfl
    rw [fs.root] at hp
    cases hp
  have hmissing : (fs.withDirs p.dropLast).entry p = none := by
    have hprefix : ¬ p <+: p.dropLast := by
      intro h
      have hle := h.length_le
      have hpos := List.length_pos_iff.2 hne
      rw [List.length_dropLast] at hle
      omega
    exact (if_neg hprefix).trans hp
  have hparent : (fs.withDirs p.dropLast).entry p.dropLast = some .dir := if_pos List.prefix_rfl
  have hdir : (fs.withDirs p.dropLast).entry p ≠ some .dir := by
    rw [hmissing]
    simp
  refine ⟨createDirAll_eq_ok.2 ⟨hopen, rfl⟩, hadds, hmissing, fun bytes => ?_⟩
  exact ⟨_, write_eq_ok.2 ⟨hdir, hparent, rfl⟩, hadds.trans (adds_put hdir hparent hmissing),
    entry_put hdir hparent⟩

end FileSystem

/-! ## Programs -/

/-- Programs that work on files: at an error they stop, and the files are left as they are then. -/
abbrev FileM (ε : Type) := ExceptT ε (StateM FileSystem)

namespace FileM

variable {ε α β : Type} {m : FileM ε α} {f : α → FileM ε β} {fs fs' : FileSystem} {a : α} {e : ε}

/-- What a program returns, and what it leaves. -/
def exec (m : FileM ε α) (fs : FileSystem) : Except ε α × FileSystem := m.run.run fs

/-- Find out something about the files, or fail. -/
def query (op : FileSystem → Except ε α) : FileM ε α := do
  match op (← get) with
  | .ok a => pure a
  | .error e => throw e

/-- Apply an operation. -/
def apply (op : FileSystem → Except ε FileSystem) : FileM ε Unit := do
  set (← query op)

@[simp] theorem exec_pure : (pure a : FileM ε α).exec fs = (.ok a, fs) := rfl

@[simp] theorem exec_get_bind {f : FileSystem → FileM ε β} :
    (get >>= f).exec fs = (f fs).exec fs := rfl

theorem exec_bind : (m >>= f).exec fs =
    match m.exec fs with
    | (.ok a, fs') => (f a).exec fs'
    | (.error e, fs') => (.error e, fs') := by
  change (ExceptT.bindCont f (m.exec fs).1).run (m.exec fs).2 = _
  rcases m.exec fs with ⟨_ | _, _⟩
  · rfl
  · rfl

theorem exec_bind_of_ok (h : m.exec fs = (.ok a, fs')) : (m >>= f).exec fs = (f a).exec fs' := by
  rw [exec_bind, h]

theorem exec_bind_of_error (h : m.exec fs = (.error e, fs')) :
    (m >>= f).exec fs = (.error e, fs') := by
  rw [exec_bind, h]

@[simp] theorem exec_query (op : FileSystem → Except ε α) :
    (query op).exec fs = (op fs, fs) := by
  rw [query, exec_get_bind]
  cases op fs with
  | ok a => rfl
  | error e => rfl

theorem exec_query_bind {op : FileSystem → Except ε α} (h : op fs = .ok a) :
    (query op >>= f).exec fs = (f a).exec fs := by
  rw [exec_bind, exec_query, h]

theorem exec_apply_of_ok {op : FileSystem → Except ε FileSystem} (h : op fs = .ok fs') :
    (apply op).exec fs = (.ok (), fs') := by
  rw [apply, exec_query_bind h]
  rfl

theorem exec_apply_of_error {op : FileSystem → Except ε FileSystem} (h : op fs = .error e) :
    (apply op).exec fs = (.error e, fs) := by
  rw [apply, exec_bind, exec_query, h]

end FileM

end Flodex
