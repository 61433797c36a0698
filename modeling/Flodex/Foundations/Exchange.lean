import Flodex.Foundations.Run
import Mathlib.Logic.Relation

/-!
# Sealed exchanges

An asker draws a key and seals a request under it; the far end opens what comes under a key, and
seals a reply under the same key; the asker opens a reply. The seals do not say which end made
them, so what an asker opens can be a reply to its request, a reply to such a reply, or the request
itself.

`Secure` says of a list of uses what the cipher and the randomness give: the key that an asker draws
is fresh, and what opens under it was sealed under it. `Secure.origin` is what follows for every
text that opens: it goes back to the request by replies.
-/

namespace Flodex

open Relation

variable {K B : Type*}

/-- What an end does with a key. -/
inductive KeyUse (K B : Type*)
  | ask (key : K) (request : B)
  | reply (key : K) (opened sealed : B)
  | take (key : K) (opened : B)

namespace KeyUse

def key : KeyUse K B → K
  | .ask key _ => key
  | .reply key _ _ => key
  | .take key _ => key

/-- The text that the use opens. -/
def opened : KeyUse K B → Option B
  | .ask .. => none
  | .reply _ opened _ => some opened
  | .take _ opened => some opened

/-- The text that the use seals. -/
def sealed : KeyUse K B → Option B
  | .ask _ request => some request
  | .reply _ _ sealed => some sealed
  | .take .. => none

end KeyUse

/-- The keys that askers draw are fresh, and what opens under them was sealed under them. -/
structure Secure (us : List (KeyUse K B)) : Prop where
  fresh : Along (fun before u => ∀ k r, u = .ask k r → ∀ v ∈ before, v.key ≠ k) us
  authentic : Along (fun before u => ∀ t ∈ u.opened, (∃ r, .ask u.key r ∈ before) →
    ∃ v ∈ before, v.key = u.key ∧ t ∈ v.sealed) us

/-- The second text was sealed in reply to the first. -/
def Replies (us : List (KeyUse K B)) (k : K) (t t' : B) : Prop := .reply k t t' ∈ us

namespace Secure

variable {us before rest : List (KeyUse K B)} {u : KeyUse K B} {k : K} {r r' t : B}

theorem nil : Secure ([] : List (KeyUse K B)) := ⟨along_nil, along_nil⟩

/-- A key that nobody used is drawn. -/
theorem ask (h : Secure us) (hfresh : ∀ v ∈ us, v.key ≠ k) : Secure (us ++ [.ask k r]) := by
  refine ⟨along_concat.2 ⟨h.fresh, fun k' r' heq => ?_⟩, along_concat.2 ⟨h.authentic, nofun⟩⟩
  injection heq with hk _
  exact hk ▸ hfresh

/-- What was sealed is opened. -/
theorem opens (h : Secure us) (hu : ∀ k r, u ≠ .ask k r)
    (hsealed : ∀ t ∈ u.opened, ∃ v ∈ us, v.key = u.key ∧ t ∈ v.sealed) : Secure (us ++ [u]) :=
  ⟨along_concat.2 ⟨h.fresh, fun k r heq => absurd heq (hu k r)⟩,
    along_concat.2 ⟨h.authentic, fun t ht _ => hsealed t ht⟩⟩

theorem left (h : Secure (us ++ rest)) : Secure us := ⟨h.fresh.left, h.authentic.left⟩

/-- Nothing used the key before the asker drew it. -/
theorem ask_mem (h : Secure us) (hus : us = before ++ u :: rest) (hask : .ask u.key r ∈ us)
    (hu : ∀ r, u ≠ .ask u.key r) : .ask u.key r ∈ before := by
  subst hus
  rcases List.mem_append.1 hask with hask | hask
  · exact hask
  · rcases List.mem_cons.1 hask with hask | hask
    · exact absurd hask.symm (hu r)
    · obtain ⟨rest₁, rest₂, rfl⟩ := List.append_of_mem hask
      exact absurd rfl (h.fresh (before ++ u :: rest₁) (.ask u.key r) rest₂ (by simp) _ r rfl u
        (by simp))

/-- An asker draws a key once. -/
theorem ask_unique (h : Secure us) (hask : .ask k r ∈ us) (hask' : .ask k r' ∈ us) : r = r' := by
  obtain ⟨before, rest, rfl⟩ := List.append_of_mem hask
  have hfresh := h.fresh before _ rest rfl k r rfl
  rcases List.mem_append.1 hask' with hask' | hask'
  · exact absurd rfl (hfresh _ hask')
  · rcases List.mem_cons.1 hask' with heq | hask'
    · injection heq with _ heq
      exact heq.symm
    · obtain ⟨rest₁, rest₂, rfl⟩ := List.append_of_mem hask'
      exact absurd rfl (h.fresh (before ++ .ask k r :: rest₁) _ rest₂ (by simp) k r' rfl
        (.ask k r) (by simp))

/-- **What opens under the key of a request** goes back to the request by replies, each of them
sealed before. -/
theorem origin (h : Secure us) (hus : us = before ++ u :: rest) (hopened : t ∈ u.opened)
    (hask : .ask u.key r ∈ us) : ReflTransGen (Replies before u.key) r t := by
  -- by induction on how much came before the text opens
  induction hlen : before.length using Nat.strong_induction_on generalizing before u rest t with
  | _ n ih =>
    have hbefore : .ask u.key r ∈ before := by
      refine h.ask_mem hus hask fun r' hu => ?_
      rw [hu] at hopened
      simp [KeyUse.opened] at hopened
    obtain ⟨v, hv, hkey, hsealed⟩ := h.authentic before u rest hus t hopened ⟨r, hbefore⟩
    cases v with
    | ask k r' =>
      obtain rfl : r' = t := by simpa [KeyUse.sealed] using hsealed
      obtain rfl : k = u.key := hkey
      have hmem : .ask u.key r' ∈ us := by rw [hus]; exact List.mem_append_left _ hv
      rw [h.ask_unique hask hmem]
    | reply k t' t'' =>
      obtain rfl : t'' = t := by simpa [KeyUse.sealed] using hsealed
      obtain rfl : k = u.key := hkey
      obtain ⟨before₁, before₂, hsplit⟩ := List.append_of_mem hv
      have hlt : before₁.length < n := by
        rw [← hlen, hsplit, List.length_append, List.length_cons]
        omega
      have hus' : us = before₁ ++ .reply u.key t' t'' :: (before₂ ++ u :: rest) := by
        rw [hus, hsplit, List.append_assoc, List.cons_append]
      have hearlier : ReflTransGen (Replies before₁ u.key) r t' := 
        ih _ hlt (u := .reply u.key t' t'') hus' rfl hask rfl
      have hmono : Replies before₁ u.key ≤ Replies before u.key := fun _ _ hreply => by
        rw [Replies, hsplit]
        exact List.mem_append_left _ hreply
      exact .tail (ReflTransGen.mono hmono _ _ hearlier) hv
    | take k t' => simp [KeyUse.sealed] at hsealed

/-- Where no reply is replied to, the asker opens its own request, or a reply to it. -/
theorem origin_of_apart (h : Secure us) (hus : us = before ++ u :: rest) (hopened : t ∈ u.opened)
    (hask : .ask u.key r ∈ us)
    (apart : ∀ t t' t'', Replies us u.key t t' → ¬ Replies us u.key t' t'') :
    t = r ∨ Replies before u.key r t := by
  have hmono : ∀ t t', Replies before u.key t t' → Replies us u.key t t' := fun _ _ hreply => by
    rw [Replies, hus]
    exact List.mem_append_left _ hreply
  rcases (h.origin hus hopened hask).cases_tail with heq | ⟨t', hchain, hlast⟩
  · exact .inl heq
  · rcases hchain.cases_tail with heq | ⟨t'', -, hreply⟩
    · exact .inr (heq ▸ hlast)
    · exact absurd (hmono _ _ hlast) (apart _ _ _ (hmono _ _ hreply))

end Secure

end Flodex
