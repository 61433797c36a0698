import Flodex.Foundations.Run

/-!
# Leases

Whoever holds a lease has to renew it before it lapses. He does so in rounds: a round is due at
some time, it is over within a delay, and the next one is due at most a period after it. A round
can miss: it ends without a renewal. What holds of a lease that is longer than `k` missed rounds
and the one after them (`Rounds.held`) rests on one count, the rounds that ended since the last
renewal (`Rounds.Since`).
-/

namespace Flodex

variable {σ α : Type*}

/-- The rounds of the holder of a lease, as a view of a machine with a clock. -/
structure Rounds (σ α : Type*) where
  /-- The time. -/
  clock : σ → ℕ
  /-- The time at which the round is due, or at which it was if it began. -/
  wake : σ → ℕ
  /-- The longest time between a round and the next one. -/
  period : ℕ
  /-- The longest time that a round takes. -/
  delay : ℕ
  /-- The event ends a round. -/
  ends : Event σ α → Bool
  /-- The event renews the lease. -/
  renews : Event σ α → Prop
  /-- The lease is held, by a renewal in a round that was due at this time or later. -/
  holds : σ → ℕ → Prop

namespace Rounds

variable (R : Rounds σ α) (L k : ℕ)

/-- Every event is one of the rounds of a lease of length `L`: rounds are on time, a renewal is in
a round, and as long as the lease has not lapsed it is not lost. -/
structure Step (e : Event σ α) : Prop where
  prompt : R.clock e.post ≤ R.wake e.post + R.delay
  due : R.wake e.post ≤ if R.ends e then R.clock e.pre + R.period else R.wake e.pre
  renewed : R.renews e → R.ends e = false ∧ R.holds e.post (R.wake e.pre)
  kept : ∀ a, R.holds e.pre a → R.clock e.pre < a + L → R.holds e.post a

/-- At most `k` rounds in a row miss: a stretch without a renewal has at most `k` more ends of
rounds than the one of a round that renewed the lease before. -/
def MissesAtMost (h : List (Event σ α)) : Prop :=
  ∀ l, l <:+: h → (∀ e ∈ l, ¬ R.renews e) → l.countP R.ends ≤ k + 1

/-- The time, when `n` rounds ended since the one that was due at `a`. -/
structure Since (a n : ℕ) (t : σ) : Prop where
  prompt : R.clock t ≤ R.wake t + R.delay
  due : R.wake t ≤ a + n * (R.period + R.delay)

variable {R L k} {a n : ℕ} {e : Event σ α} {h : List (Event σ α)}

theorem MissesAtMost.left {h' : List (Event σ α)} (few : R.MissesAtMost k (h ++ h')) :
    R.MissesAtMost k h :=
  fun l hl => few l (hl.trans (List.prefix_append h h').isInfix)

theorem MissesAtMost.mono {k' : ℕ} (few : R.MissesAtMost k h) (hk : k ≤ k') :
    R.MissesAtMost k' h :=
  fun l hl hnone => (few l hl hnone).trans (Nat.add_le_add_right hk 1)

theorem Since.le {t : σ} (since : R.Since a n t) :
    R.clock t ≤ a + n * (R.period + R.delay) + R.delay :=
  since.prompt.trans (Nat.add_le_add_right since.due _)

theorem Since.mono {t : σ} {n' : ℕ} (since : R.Since a n t) (hn : n ≤ n') : R.Since a n' t := by
  refine ⟨since.prompt, since.due.trans ?_⟩
  have := Nat.mul_le_mul_right (R.period + R.delay) hn
  omega

/-- One more round, if the event ends it. -/
theorem Since.step (since : R.Since a n e.pre) (he : R.Step L e) :
    R.Since a (n + [e].countP R.ends) e.post := by
  have hdue := he.due
  refine ⟨he.prompt, ?_⟩
  split_ifs at hdue with hends
  · have hle := since.le
    rw [List.countP_singleton, if_pos hends, Nat.add_mul, Nat.one_mul]
    omega
  · rw [List.countP_singleton, if_neg hends, Nat.add_zero]
    exact hdue.trans since.due

/-- A renewal starts the count. -/
theorem since_renewed (he : R.Step L e) (hrenews : R.renews e) :
    R.Since (R.wake e.pre) 0 e.post := by
  obtain ⟨hends, -⟩ := he.renewed hrenews
  have hdue := he.due
  rw [hends] at hdue
  exact ⟨he.prompt, by simpa using hdue⟩

/-- What is known after the events `h`: the last of them do not renew the lease, and either there
are no others, or the lease is held by the renewal before them. -/
inductive Counted (R : Rounds σ α) (s : σ) (h : List (Event σ α)) (t : σ) : Prop
  | unheld (none : ∀ e ∈ h, ¬ R.renews e) (since : R.Since (R.wake s) (h.countP R.ends) t)
  | held {a : ℕ} {l : List (Event σ α)} (last : l <:+ h) (none : ∀ e ∈ l, ¬ R.renews e)
    (holds : R.holds t a) (since : R.Since a (l.countP R.ends) t)

variable {M : Machine σ α} {s t : σ}

theorem Counted.snoc (counted : R.Counted s h e.pre) (he : R.Step L e)
    (few : R.MissesAtMost k h) (hlong : (k + 1) * (R.period + R.delay) + R.delay < L) :
    R.Counted s (h ++ [e]) e.post := by
  by_cases hrenews : R.renews e
  · obtain ⟨-, hholds⟩ := he.renewed hrenews
    exact .held (List.nil_suffix) (by simp) hholds (by simpa using since_renewed he hrenews)
  have none_concat : ∀ {l : List (Event σ α)}, (∀ e ∈ l, ¬ R.renews e) →
      ∀ e' ∈ l ++ [e], ¬ R.renews e' := by
    intro l hnone e' he'
    obtain he' | he' := List.mem_append.1 he'
    · exact hnone e' he'
    · obtain rfl := List.mem_singleton.1 he'
      exact hrenews
  cases counted with
  | unheld hnone since =>
    refine .unheld (none_concat hnone) ?_
    rw [List.countP_append]
    exact since.step he
  | @held a l last hnone hholds since =>
    have hcount := few l last.isInfix hnone
    have hclock := (since.mono hcount).le
    have hkept := he.kept a hholds (by omega)
    obtain ⟨h₁, rfl⟩ := last
    refine .held ⟨h₁, (List.append_assoc ..).symm⟩ (none_concat hnone) hkept ?_
    rw [List.countP_append]
    exact since.step he

theorem counted (r : Run M s h t) (prompt : R.clock s ≤ R.wake s + R.delay)
    (steps : ∀ e ∈ h, R.Step L e) (few : R.MissesAtMost k h)
    (hlong : (k + 1) * (R.period + R.delay) + R.delay < L) : R.Counted s h t := by
  induction r with
  | nil => exact .unheld (by simp) ⟨prompt, by simp⟩
  | snoc run legal ih =>
    have counted := ih (fun e he => steps e (List.mem_append_left _ he)) few.left
    exact counted.snoc (steps _ (by simp)) few.left hlong

/-- **A lease is held**, and has not lapsed, in a run in which at most `k` rounds in a row miss, as
soon as so many rounds and one more had the time to end; whether it was held before or not. -/
theorem held (r : Run M s h t) (prompt : R.clock s ≤ R.wake s + R.delay)
    (steps : ∀ e ∈ h, R.Step L e) (few : R.MissesAtMost k h)
    (hlong : (k + 1) * (R.period + R.delay) + R.delay < L)
    (late : R.wake s + (k + 1) * (R.period + R.delay) + R.delay < R.clock t) :
    ∃ a, R.holds t a ∧ R.clock t < a + L := by
  cases counted r prompt steps few hlong with
  | unheld hnone since =>
    have hle := (since.mono (few h List.infix_rfl hnone)).le
    omega
  | @held a l last hnone hholds since =>
    have hle := (since.mono (few l last.isInfix hnone)).le
    exact ⟨a, hholds, by omega⟩

/-- **No round misses**, if a round that did not renew the lease yet does not end before it does. -/
theorem missesAtMost_zero (pending : σ → Prop) (r : Run M s h t)
    (begins : ∀ e ∈ h, R.ends e = true → pending e.post)
    (kept : ∀ e ∈ h, pending e.pre → ¬ R.renews e → R.ends e = false ∧ pending e.post) :
    R.MissesAtMost 0 h := by
  -- before the first end nothing is known of the round, after it the next one is pending
  have counts : ∀ {l : List (Event σ α)} {u v : σ}, Run M u l v → l ⊆ h →
      (∀ e ∈ l, ¬ R.renews e) → l.countP R.ends = 0 ∨ l.countP R.ends = 1 ∧ pending v := by
    intro l u v run
    induction run with
    | nil => exact fun _ _ => .inl rfl
    | @snoc l v a run legal ih =>
      intro hsub hnone
      generalize hlast : (⟨v, a, M.next v a⟩ : Event σ α) = last at hsub hnone ⊢
      obtain ⟨hl, hmem⟩ := List.append_subset.1 hsub
      have hmem := hmem (List.mem_singleton_self last)
      rw [List.countP_append, List.countP_singleton]
      obtain hzero | ⟨hone, hpending⟩ := ih hl fun e he => hnone e (List.mem_append_left _ he)
      · rw [hzero]
        split_ifs with hends
        · have hbegins := begins last hmem hends
          rw [← hlast] at hbegins
          exact .inr ⟨rfl, hbegins⟩
        · exact .inl rfl
      · have hrenews := hnone last (by simp)
        have hkept := kept last hmem (by rw [← hlast]; exact hpending) hrenews
        rw [hone, hkept.1]
        rw [← hlast] at hkept
        exact .inr ⟨rfl, hkept.2⟩
  rintro l ⟨h₁, h₂, rfl⟩ hnone
  obtain ⟨v, r₁, -⟩ := r.splitAppend
  obtain ⟨u, -, rl⟩ := r₁.splitAppend
  obtain hzero | ⟨hone, -⟩ := counts rl (fun e he => by simp [he]) hnone
  · omega
  · omega

end Rounds

end Flodex
