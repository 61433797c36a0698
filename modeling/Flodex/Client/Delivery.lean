import Flodex.Client.Loop

/-!
# Acks on their way to the node

Every ack that the loop signs travels with its next request. `Relays` is the relation between the
ack that is on its way before some effects and the one after them: a run keeps to it, whatever the
node answers (`runAgentLoop_relays`), so at the end of a run one ack can be left.

`acks_delivered` says when it is: when the last answer of the run carries a receipt, which of a run
that returns is the final answer.
-/

namespace Flodex.Client

variable {browser : Browser} {args : Args} {url : String}

/-! ## Delivery -/

/-- The effect takes the ack to the node. -/
def Effect.Sends (url : String) (ack : ClientAck) : Effect → Prop
  | .execute url' req => url' = url ∧ req.prevAck = some ack
  | .ack url' ack' => url' = url ∧ ack' = ack
  | _ => False

/-- Every ack that is signed is sent to the node afterwards, in the order of the receipts. -/
def Delivered (url : String) (h : List Effect) : Prop :=
  ∃ sentAt : ℕ → ℕ,
    (∀ i receipt ack, h[i]? = some (.signed receipt ack) →
      i < sentAt i ∧ ∃ e, h[sentAt i]? = some e ∧ e.Sends url ack) ∧
    ∀ i j receipt ack receipt' ack', h[i]? = some (.signed receipt ack) →
      h[j]? = some (.signed receipt' ack') → i < j → sentAt i < sentAt j

/-- Whether an answer carries a receipt. -/
def receipted (result : SendStepResult) : Bool := (result.receipt.filter truthy).isSome

/-- Whether a receipt came since the last request, with an effect more. -/
def awaits (b : Bool) : Effect → Bool
  | .execute .. => false
  | .answered result => receipted result
  | _ => b

/-- Whether the answer to the last request carries a receipt. -/
def lastReceipted (h : List Effect) : Bool := h.foldl awaits false

/-- From the ack that is on its way before the effects to the one after them. -/
inductive Relays (url : String) : Option ClientAck → List Effect → Option ClientAck → Prop
  | nil {p : Option ClientAck} : Relays url p [] p
  | event {ev : AgentEvent} {es : List Effect} {p q : Option ClientAck} (h : Relays url p es q) :
    Relays url p (.event ev :: es) q
  | answered {result : SendStepResult} {es : List Effect} {p q : Option ClientAck}
    (h : Relays url p es q) : Relays url p (.answered result :: es) q
  | execute {req : EncryptedRequest} {es : List Effect} {p q : Option ClientAck}
    (hp : ∀ ack ∈ p, req.prevAck = some ack) (h : Relays url none es q) :
    Relays url p (.execute url req :: es) q
  | signed {receipt : Value} {ack : ClientAck} {es : List Effect} {q : Option ClientAck}
    (h : Relays url (some ack) es q) : Relays url none (.signed receipt ack :: es) q

namespace Relays

variable {p q r : Option ClientAck} {es es' : List Effect}

theorem append (h : Relays url p es q) (h' : Relays url q es' r) : Relays url p (es ++ es') r := by
  induction h with
  | nil => exact h'
  | event _ ih => exact .event (ih h')
  | answered _ ih => exact .answered (ih h')
  | execute hp _ ih => exact .execute hp (ih h')
  | signed _ ih => exact .signed (ih h')

theorem flatMap {α : Type*} {l : List α} {f : α → List Effect}
    (h : ∀ a ∈ l, Relays url none (f a) none) : Relays url none (l.flatMap f) none := by
  induction l with
  | nil => exact .nil
  | cons a l ih =>
    rw [List.forall_mem_cons] at h
    exact h.1.append (ih h.2)

/-- Effects that are events only. -/
theorem of_events (h : ∀ e ∈ es, ∃ ev, e = Effect.event ev) : Relays url p es p := by
  induction es with
  | nil => exact .nil
  | cons e es ih =>
    rw [List.forall_mem_cons] at h
    obtain ⟨⟨ev, rfl⟩, h⟩ := h
    exact .event (ih h)

end Relays

/-- The effect is a signature. -/
def Signed (e : Option Effect) : Prop := ∃ receipt ack, e = some (.signed receipt ack)

/-- The ack is sent, before another one is signed. -/
def SentNext (url : String) (ack : ClientAck) (es : List Effect) : Prop :=
  ∃ (k : ℕ) (e : Effect), es[k]? = some e ∧ e.Sends url ack ∧ ∀ j < k, ¬Signed es[j]?

theorem SentNext.cons {e : Effect} {es : List Effect} {ack : ClientAck} (he : ¬Signed (some e))
    (h : SentNext url ack es) : SentNext url ack (e :: es) := by
  obtain ⟨k, e', hk, hsends, hbefore⟩ := h
  refine ⟨k + 1, e', hk, hsends, fun j hj => ?_⟩
  cases j with
  | zero => exact he
  | succ j => exact hbefore j (by omega)

theorem not_signed_of_sends {e : Effect} {ack : ClientAck} (h : e.Sends url ack) :
    ¬Signed (some e) := by
  rintro ⟨receipt, ack', he⟩
  rw [Option.some.inj he] at h
  exact h

/-- Acks that are sent before the next one is signed are delivered. -/
theorem delivered_of_sentNext {h : List Effect} (hsent : ∀ i receipt ack,
    h[i]? = some (.signed receipt ack) → SentNext url ack (h.drop (i + 1))) : Delivered url h := by
  have hnext : ∀ i : ℕ, ∃ k : ℕ, ∀ receipt ack, h[i]? = some (Effect.signed receipt ack) →
      i < k ∧ (∃ e, h[k]? = some e ∧ Effect.Sends url ack e) ∧
        ∀ j, i < j → j < k → ¬Signed h[j]? := by
    intro i
    by_cases hi : Signed h[i]?
    · obtain ⟨receipt, ack, hi⟩ := hi
      obtain ⟨k, e, hk, hsends, hbefore⟩ := hsent i receipt ack hi
      rw [List.getElem?_drop] at hk
      refine ⟨i + 1 + k, fun receipt' ack' hi' => ?_⟩
      obtain ⟨rfl, rfl⟩ := Effect.signed.inj (Option.some.inj (hi.symm.trans hi'))
      refine ⟨by omega, ⟨e, hk, hsends⟩, fun j hij hjk => ?_⟩
      have hj := hbefore (j - (i + 1)) (by omega)
      rwa [List.getElem?_drop, Nat.add_sub_cancel' hij] at hj
    · exact ⟨0, fun receipt ack hi' => absurd ⟨receipt, ack, hi'⟩ hi⟩
  choose sentAt hsentAt using hnext
  refine ⟨sentAt, fun i receipt ack hi => ?_, fun i j receipt ack receipt' ack' hi hj hij => ?_⟩
  · obtain ⟨hlt, hsends, -⟩ := hsentAt i receipt ack hi
    exact ⟨hlt, hsends⟩
  · obtain ⟨-, ⟨e, he, hsends⟩, hbefore⟩ := hsentAt i receipt ack hi
    have hlt := (hsentAt j receipt' ack' hj).1
    by_contra hle
    -- then the second ack was signed no later than the first one was sent
    obtain hlt' | heq := Nat.lt_or_eq_of_le (show j ≤ sentAt i by omega)
    · exact hbefore j hij hlt' ⟨receipt', ack', hj⟩
    · rw [heq, he] at hj
      exact not_signed_of_sends hsends ⟨receipt', ack', hj⟩

namespace Relays

variable {p q r : Option ClientAck} {es es' : List Effect}

/-- An ack on its way is sent next. -/
theorem sentNext (h : Relays url p es q) (hq : q = none) {ack : ClientAck} (hack : ack ∈ p) :
    SentNext url ack es := by
  induction h with
  | nil =>
    subst hq
    cases hack
  | event _ ih => exact (ih hq hack).cons (by rintro ⟨_, _, h⟩; cases h)
  | answered _ ih => exact (ih hq hack).cons (by rintro ⟨_, _, h⟩; cases h)
  | execute hp => exact ⟨0, _, rfl, ⟨rfl, hp ack hack⟩, fun j hj => absurd hj (Nat.not_lt_zero j)⟩
  | signed => cases hack

/-- A signed ack is sent next. -/
theorem sentNext_of_signed (h : Relays url p es q) (hq : q = none) {i : ℕ} {receipt : Value}
    {ack : ClientAck} (hi : es[i]? = some (.signed receipt ack)) :
    SentNext url ack (es.drop (i + 1)) := by
  induction h generalizing i with
  | nil => cases hi
  | event _ ih | answered _ ih | execute _ _ ih =>
    cases i with
    | zero => cases hi
    | succ i => exact ih hq hi
  | signed h ih =>
    cases i with
    | zero =>
      cases hi
      exact h.sentNext hq rfl
    | succ i => exact ih hq hi

/-- **With nothing on its way at the end**, every ack was delivered. -/
theorem delivered (h : Relays url p es none) : Delivered url es :=
  delivered_of_sentNext fun _ _ _ hi => h.sentNext_of_signed rfl hi

/-- An ack that is on its way at the end was sent by nothing. -/
theorem exists_signed (h : Relays url p es q) {ack : ClientAck} (hq : q = some ack) :
    (p = some ack ∧ ∀ e ∈ es, ∀ url ack, ¬Effect.Sends url ack e) ∨
      ∃ pre receipt post, es = pre ++ Effect.signed receipt ack :: post ∧
        ∀ e ∈ post, ∀ url ack, ¬Effect.Sends url ack e := by
  induction h with
  | nil => exact .inl ⟨hq, fun e he => by cases he⟩
  | @event ev _ _ _ _ ih =>
    obtain ⟨hp, hnone⟩ | ⟨pre, receipt, post, rfl, hpost⟩ := ih hq
    · exact .inl ⟨hp, List.forall_mem_cons.2 ⟨fun _ _ h => h, hnone⟩⟩
    · exact .inr ⟨.event ev :: pre, receipt, post, rfl, hpost⟩
  | @answered result _ _ _ _ ih =>
    obtain ⟨hp, hnone⟩ | ⟨pre, receipt, post, rfl, hpost⟩ := ih hq
    · exact .inl ⟨hp, List.forall_mem_cons.2 ⟨fun _ _ h => h, hnone⟩⟩
    · exact .inr ⟨.answered result :: pre, receipt, post, rfl, hpost⟩
  | @execute req _ _ _ _ _ ih =>
    obtain ⟨hp, -⟩ | ⟨pre, receipt, post, rfl, hpost⟩ := ih hq
    · cases hp
    · exact .inr ⟨.execute url req :: pre, receipt, post, rfl, hpost⟩
  | @signed receipt _ _ _ _ ih =>
    obtain ⟨hp, hnone⟩ | ⟨pre, receipt', post, rfl, hpost⟩ := ih hq
    · cases hp
      exact .inr ⟨[], receipt, _, rfl, hnone⟩
    · exact .inr ⟨_ :: pre, receipt', post, rfl, hpost⟩

/-- **With an ack on its way at the end**, that one was not delivered. -/
theorem not_delivered {ack : ClientAck} (h : Relays url none es (some ack)) :
    ¬Delivered url es := by
  rintro ⟨sentAt, hsent, -⟩
  obtain ⟨hp, -⟩ | ⟨pre, receipt, post, rfl, hpost⟩ := h.exists_signed rfl
  · cases hp
  · obtain ⟨hlt, e, he, hsends⟩ := hsent pre.length receipt ack (by simp)
    obtain ⟨k, hk⟩ := Nat.exists_eq_add_of_lt hlt
    rw [hk, Nat.add_assoc, List.getElem?_append_right (Nat.le_add_right ..),
      Nat.add_sub_cancel_left, List.getElem?_cons_succ] at he
    exact hpost e (List.mem_of_getElem? he) url ack hsends

end Relays

/-! ## A round -/

/-- Every receipt is signed. -/
def Args.Signs (args : Args) : Prop :=
  ∃ signAck, args.signAck = some signAck ∧ ∀ receipt h, ∃ ack, signAck receipt h = .ok ack

/-- What becomes of the receipt of an answer. -/
inductive Acknowledges (args : Args) (prevAck : Option ClientAck) (receipt : Option Value) :
    List Effect → Option ClientAck → Prop
  | without (h : receipt.filter truthy = none) : Acknowledges args prevAck receipt [] prevAck
  | signed {r : Value} {ack : ClientAck} (h : receipt.filter truthy = some r) :
    Acknowledges args prevAck receipt
      [.signed r ack, .event (.receipt args.sessionId r (some ack))] (some ack)

/-- What a round does and how it ends. -/
inductive Round (args : Args) (s : Loop) :
    List Effect → Except String (Option Value ⊕ Loop) → Prop
  | unsent {message : String} :
    Round args s [.event (.requestStart args.sessionId (s.attempt + 1)),
      .event (.error args.sessionId message)] (.error message)
  | unanswered {req : EncryptedRequest} {message : String} (hreq : req.prevAck = s.prevAck) :
    Round args s [.event (.requestStart args.sessionId (s.attempt + 1)),
      .execute args.nodeUrl req, .event (.error args.sessionId message)] (.error message)
  | answered {req : EncryptedRequest} {result : SendStepResult} {acks tail : List Effect}
    {prevAck : Option ClientAck} {r : Except String (Option Value ⊕ Loop)}
    (hreq : req.prevAck = s.prevAck)
    (hacks : Acknowledges args s.prevAck result.receipt acks prevAck)
    (htail : ∀ e ∈ tail, ∃ ev, e = .event ev)
    (hreturn : ∀ content, r = .ok (.inl content) → isFinal result.response = .ok true)
    (hnext : ∀ s', r = .ok (.inr s') →
      isFinal result.response = .ok false ∧ s'.prevAck = prevAck) :
    Round args s (.event (.requestStart args.sessionId (s.attempt + 1)) ::
      .execute args.nodeUrl req :: .answered result ::
      .event (.response args.sessionId result.response) :: (acks ++ tail)) r

section

variable {s : Loop} {t es : List Effect}

/-- A step is sent in one request, or not at all. -/
theorem sendStep_cases {opts : SendStepOptions} {r : Except String SendStepResult}
    (h : sendStep browser opts t = (r, es)) :
    (es = [] ∧ ∃ message, r = .error message) ∨
      ∃ req, req.prevAck = opts.prevAck ∧ es = [.execute opts.nodeUrl req] := by
  obtain ⟨message, hseal, rfl⟩ | ⟨sealed, es₁, es₂, hseal, hrest, rfl⟩ := Traced.bind_cases h
  · exact .inl ⟨(Prod.mk.inj hseal).2.symm, message, rfl⟩
  · obtain rfl := (Prod.mk.inj hseal).2
    obtain ⟨message, hpost, -⟩ | ⟨⟨⟩, es₁, es₂, hpost, hanswer, rfl⟩ := Traced.bind_cases hrest
    · cases hpost
    · obtain rfl := (Prod.mk.inj hpost).2
      obtain rfl := (Prod.mk.inj hanswer).2
      exact .inr ⟨_, rfl, rfl⟩

/-- A receipt is signed, and the ack is the next one to be sent. -/
theorem acknowledge_cases (hsigns : args.Signs) {prevAck : Option ClientAck}
    {receipt : Option Value} {r : Except String (Option ClientAck)}
    (h : acknowledge args prevAck receipt t = (r, es)) :
    ∃ prevAck', r = .ok prevAck' ∧ Acknowledges args prevAck receipt es prevAck' := by
  obtain ⟨signAck, hsignAck, hsigned⟩ := hsigns
  rw [acknowledge, hsignAck] at h
  cases hreceipt : receipt.filter truthy with
  | none =>
    rw [hreceipt] at h
    obtain ⟨rfl, rfl⟩ := Prod.mk.inj h
    exact ⟨prevAck, rfl, .without hreceipt⟩
  | some v =>
    obtain ⟨ack, hack⟩ := hsigned v t
    have hsign : sign signAck v t = (.ok ack, [.signed v ack]) := by
      have hask : (Traced.ask (signAck v) : Async ClientAck) t = (.ok ack, []) := by
        rw [Traced.ask_apply, hack]
      exact Traced.bind_of_ok hask
    have hsome : (do let ack ← sign signAck v; pure (some ack) : Async (Option ClientAck)) t =
        (.ok (some ack), [.signed v ack]) := Traced.bind_of_ok hsign
    rw [hreceipt] at h
    simp only at h
    rw [Traced.bind_of_ok (Traced.handle_of_ok hsome)] at h
    obtain ⟨rfl, rfl⟩ := Prod.mk.inj h
    exact ⟨some ack, rfl, .signed hreceipt⟩

/-- Tools are called between events. -/
theorem proceed_only (response : Value) :
    Traced.Only (fun e => ∃ ev, e = Effect.event ev) (proceed browser args response) := by
  have hemit : ∀ ev, Traced.Only (fun e => ∃ ev, e = Effect.event ev) (emit ev) :=
    fun ev => .perform ⟨ev, rfl⟩
  refine .bind (.ofExcept _) fun final => ?_
  cases final with
  | true => exact .bind (.ofExcept _) fun content => .bind (hemit _) fun _ => .pure _
  | false =>
    refine .bind ?_ fun step => .pure _
    refine .bind (.ofExcept _) fun name => .bind (.ofExcept _) fun handler =>
      .bind (.ofExcept _) fun input => .bind (hemit _) fun _ => .bind ?_ fun result =>
      .bind (hemit _) fun _ => .bind (.ofExcept _) fun toolUseId => .pure _
    cases handler with
    | some handler => exact .ask _
    | none => exact .bind (.ofExcept _) fun text => .pure _

theorem proceed_cases {response : Value} {r : Except String (Option Value ⊕ AgentStep)}
    (h : proceed browser args response t = (r, es)) :
    (∀ e ∈ es, ∃ ev, e = Effect.event ev) ∧
      (∀ content, r = .ok (.inl content) → isFinal response = .ok true) ∧
      ∀ step, r = .ok (.inr step) → isFinal response = .ok false := by
  refine ⟨?_, ?_, ?_⟩
  · have honly := @proceed_only browser args response t
    rwa [h] at honly
  · rintro content rfl
    obtain ⟨final, es₁, es₂, hfinal, hrest, -⟩ := Traced.bind_eq_ok h
    cases final with
    | true => exact (Prod.mk.inj hfinal).1
    | false =>
      obtain ⟨step, es₃, es₄, -, hpure, -⟩ := Traced.bind_eq_ok hrest
      cases hpure
  · rintro step rfl
    obtain ⟨final, es₁, es₂, hfinal, hrest, -⟩ := Traced.bind_eq_ok h
    cases final with
    | true =>
      obtain ⟨content, es₃, es₄, -, hfinish, -⟩ := Traced.bind_eq_ok hrest
      obtain ⟨u, es₅, es₆, -, hpure, -⟩ := Traced.bind_eq_ok hfinish
      cases hpure
    | false => exact (Prod.mk.inj hfinal).1

/-- The request of a round, under its `try`. -/
theorem handle_sendStep_cases {opts : SendStepOptions} {r : Except String SendStepResult}
    (h : Traced.handle (sendStep browser opts) (fun message => do
      emit (.error args.sessionId message)
      Traced.fail message) t = (r, es)) :
    (∃ message, r = .error message ∧ (es = [.event (.error args.sessionId message)] ∨
        ∃ req, req.prevAck = opts.prevAck ∧
          es = [.execute opts.nodeUrl req, .event (.error args.sessionId message)])) ∨
      ∃ req result, r = .ok result ∧ req.prevAck = opts.prevAck ∧
        es = [.execute opts.nodeUrl req] := by
  obtain ⟨result, hsend, rfl⟩ | ⟨message, es₁, es₂, hsend, hcatch, rfl⟩ := Traced.handle_cases h
  · obtain ⟨-, message, hr⟩ | ⟨req, hreq, rfl⟩ := sendStep_cases hsend
    · cases hr
    · exact .inr ⟨req, result, rfl, hreq, rfl⟩
  · obtain ⟨rfl, rfl⟩ := Prod.mk.inj hcatch
    obtain ⟨rfl, -⟩ | ⟨req, hreq, rfl⟩ := sendStep_cases hsend
    · exact .inl ⟨message, rfl, .inl rfl⟩
    · exact .inl ⟨message, rfl, .inr ⟨req, hreq, rfl⟩⟩

/-- **What a round does**, if every receipt is signed. -/
theorem round_cases (hsigns : args.Signs) {r : Except String (Option Value ⊕ Loop)}
    (h : round browser args s t = (r, es)) : Round args s es r := by
  obtain ⟨es₁, h₁, rfl⟩ := Traced.perform_bind h
  obtain ⟨message, hsend, rfl⟩ | ⟨result, es₂, es₃, hsend, h₂, rfl⟩ := Traced.bind_cases h₁
  · obtain ⟨message', hr, rfl | ⟨req, hreq, rfl⟩⟩ | ⟨req, result, hr, -⟩ :=
      handle_sendStep_cases hsend
    · cases hr
      exact .unsent
    · cases hr
      exact .unanswered hreq
    · cases hr
  · obtain ⟨message, hr, -⟩ | ⟨req, result', hr, hreq, rfl⟩ := handle_sendStep_cases hsend
    · cases hr
    obtain ⟨es₄, h₄, rfl⟩ := Traced.perform_bind h₂
    obtain ⟨es₅, h₅, rfl⟩ := Traced.perform_bind h₄
    obtain ⟨message, hack, -⟩ | ⟨prevAck, acks, es₆, hack, h₆, rfl⟩ := Traced.bind_cases h₅
    · obtain ⟨prevAck, hr, -⟩ := acknowledge_cases hsigns hack
      cases hr
    obtain ⟨prevAck', hr', hacks⟩ := acknowledge_cases hsigns hack
    cases hr'
    obtain ⟨message, hproceed, rfl⟩ | ⟨next, tail, es₇, hproceed, h₇, rfl⟩ :=
      Traced.bind_cases h₆
    · exact .answered hreq hacks (proceed_cases hproceed).1 (by rintro _ ⟨⟩) (by rintro _ ⟨⟩)
    · obtain ⟨htail, hreturn, hnext⟩ := proceed_cases hproceed
      obtain ⟨rfl, rfl⟩ := Prod.mk.inj h₇
      rw [List.append_nil]
      refine .answered hreq hacks htail (fun content hcontent => ?_) fun s' hs' => ?_
      · cases next with
        | inl content' => exact hreturn content' rfl
        | inr step => cases hcontent
      · cases next with
        | inl content => cases hs'
        | inr step =>
          cases hs'
          exact ⟨hnext step rfl, rfl⟩

end

/-! ## Runs -/

section

variable {s : Loop} {t es : List Effect} {p q : Option ClientAck}

theorem foldl_awaits_events (h : ∀ e ∈ es, ∃ ev, e = Effect.event ev) (b : Bool) :
    es.foldl awaits b = b := by
  induction es with
  | nil => rfl
  | cons e es ih =>
    rw [List.forall_mem_cons] at h
    obtain ⟨⟨ev, rfl⟩, h⟩ := h
    exact ih h

namespace Acknowledges

variable {prevAck prevAck' : Option ClientAck} {result : SendStepResult} {acks : List Effect}

theorem foldl_awaits (h : Acknowledges args prevAck result.receipt acks prevAck') (b : Bool) :
    acks.foldl awaits b = b := by
  cases h <;> rfl

theorem not_answered (h : Acknowledges args prevAck result.receipt acks prevAck')
    (result' : SendStepResult) : .answered result' ∉ acks := by
  cases h <;> simp

theorem relays (h : Acknowledges args prevAck result.receipt acks prevAck') :
    ∃ q, Relays url none acks q ∧ receipted result = q.isSome ∧ ∀ ack ∈ q, prevAck' = some ack := by
  cases h with
  | without h =>
    refine ⟨none, .nil, ?_, by rintro _ ⟨⟩⟩
    rw [receipted, h, Option.isSome_none, Option.isSome_none]
  | @signed r ack h =>
    refine ⟨some ack, .signed (.event .nil), ?_, ?_⟩
    · rw [receipted, h, Option.isSome_some, Option.isSome_some]
    · rintro _ ⟨⟩
      rfl

end Acknowledges

/-- A round takes the ack on its way to the node, and leaves one if its answer has a receipt. -/
theorem Round.relays {r : Except String (Option Value ⊕ Loop)} (h : Round args s es r)
    (hp : ∀ ack ∈ p, s.prevAck = some ack) :
    ∃ q, Relays args.nodeUrl p es q ∧ es.foldl awaits p.isSome = q.isSome ∧
      ∀ s', r = .ok (.inr s') → ∀ ack ∈ q, s'.prevAck = some ack := by
  cases h with
  | unsent => exact ⟨p, .event (.event .nil), rfl, by rintro _ ⟨⟩⟩
  | unanswered hreq =>
    refine ⟨none, .event (.execute (fun ack hack => ?_) (.event .nil)), rfl, by rintro _ ⟨⟩⟩
    rw [hreq, hp ack hack]
  | @answered req result acks tail prevAck r hreq hacks htail hreturn hnext =>
    obtain ⟨q, hrelays, hreceipted, hq⟩ := @hacks.relays _ args.nodeUrl
    refine ⟨q, .event (.execute (fun ack hack => ?_)
      (.answered (.event (hrelays.append (.of_events htail))))), ?_, fun s' hs' ack hack => ?_⟩
    · rw [hreq, hp ack hack]
    · change (acks ++ tail).foldl awaits (receipted result) = q.isSome
      rw [List.foldl_append, hacks.foldl_awaits, foldl_awaits_events htail, hreceipted]
    · rw [(hnext s' hs').2, hq ack hack]

theorem rounds_relays (hsigns : args.Signs) {fuel : ℕ} {r : Except String (Option (Option Value))}
    (h : rounds browser args fuel s t = (r, es)) (hp : ∀ ack ∈ p, s.prevAck = some ack) :
    ∃ q, Relays args.nodeUrl p es q ∧ es.foldl awaits p.isSome = q.isSome := by
  induction fuel generalizing s t es p with
  | zero =>
    obtain ⟨-, rfl⟩ := Prod.mk.inj h
    exact ⟨p, .nil, rfl⟩
  | succ fuel ih =>
    obtain ⟨message, hround, -⟩ | ⟨next, es₁, es₂, hround, hrest, rfl⟩ := Traced.bind_cases h
    · obtain ⟨q, hrelays, hfold, -⟩ := (round_cases hsigns hround).relays hp
      exact ⟨q, hrelays, hfold⟩
    · obtain ⟨q, hrelays, hfold, hq⟩ := (round_cases hsigns hround).relays hp
      cases next with
      | inl content =>
        obtain ⟨-, rfl⟩ := Prod.mk.inj hrest
        rw [List.append_nil]
        exact ⟨q, hrelays, hfold⟩
      | inr s' =>
        obtain ⟨q', hrelays', hfold'⟩ := ih hrest (hq s' rfl)
        refine ⟨q', hrelays.append hrelays', ?_⟩
        rw [List.foldl_append, hfold, hfold']

/-- **A run relays its acks**, whatever the node answers, and one is left if the last answer carries
a receipt. -/
theorem runAgentLoop_relays (hsigns : args.Signs) {fuel : ℕ}
    {r : Except String (Option (Option Value))} (h : runAgentLoop browser args fuel t = (r, es)) :
    ∃ q, Relays args.nodeUrl none es q ∧ lastReceipted es = q.isSome :=
  rounds_relays (p := none) hsigns h (by rintro _ ⟨⟩)

theorem delivered_iff (hsigns : args.Signs) {fuel : ℕ} {r : Except String (Option (Option Value))}
    (h : runAgentLoop browser args fuel t = (r, es)) :
    Delivered args.nodeUrl es ↔ lastReceipted es = false := by
  obtain ⟨q, hrelays, hlast⟩ := runAgentLoop_relays hsigns h
  cases q with
  | none => exact iff_of_true hrelays.delivered hlast
  | some ack =>
    refine iff_of_false hrelays.not_delivered ?_
    rw [hlast, Option.isSome_some]
    decide

/-- The one answer of a round. -/
theorem Round.exists_answered {next : Option Value ⊕ Loop} (h : Round args s es (.ok next)) :
    ∃ result, .answered result ∈ es ∧ (∀ result', .answered result' ∈ es → result' = result) ∧
      (∀ b, es.foldl awaits b = receipted result) ∧
      (∀ content, next = .inl content → isFinal result.response = .ok true) ∧
      ∀ s', next = .inr s' → isFinal result.response = .ok false := by
  generalize hr : Except.ok next = r at h
  cases h with
  | unsent => cases hr
  | unanswered => cases hr
  | @answered req result acks tail prevAck r hreq hacks htail hreturn hnext =>
    subst hr
    refine ⟨result, by simp, fun result' hmem => ?_, fun b => ?_, ?_, ?_⟩
    · simp only [List.mem_cons, reduceCtorEq, false_or, List.mem_append,
        hacks.not_answered result'] at hmem
      obtain hmem | hmem := hmem
      · exact Effect.answered.inj hmem
      · obtain ⟨ev, hev⟩ := htail _ hmem
        cases hev
    · change (acks ++ tail).foldl awaits (receipted result) = receipted result
      rw [List.foldl_append, hacks.foldl_awaits, foldl_awaits_events htail]
    · rintro content rfl
      exact hreturn content rfl
    · rintro s' rfl
      exact (hnext s' rfl).1

/-- In a run that returns, the last answer is the final one. -/
theorem foldl_awaits_of_returned {fuel : ℕ} {content : Option Value} (hsigns : args.Signs)
    (h : rounds browser args fuel s t = (.ok (some content), es)) (b : Bool) :
    es.foldl awaits b = false ↔ ∀ result, .answered result ∈ es →
      isFinal result.response = .ok true → receipted result = false := by
  induction fuel generalizing s t es b with
  | zero => cases h
  | succ fuel ih =>
    obtain ⟨next, es₁, es₂, hround, hrest, rfl⟩ := Traced.bind_eq_ok h
    obtain ⟨result, hmem, honly, hfold, hreturn, hnext⟩ :=
      (round_cases hsigns hround).exists_answered
    cases next with
    | inl content' =>
      obtain ⟨-, rfl⟩ := Prod.mk.inj hrest
      rw [List.append_nil, hfold]
      constructor
      · intro hreceipted result' hmem' _
        rw [honly result' hmem', hreceipted]
      · intro hall
        exact hall result hmem (hreturn content' rfl)
    | inr s' =>
      rw [List.foldl_append, ih hrest]
      have hfinal := hnext s' rfl
      constructor
      · intro hall result' hmem' hfinal'
        obtain hmem' | hmem' := List.mem_append.1 hmem'
        · rw [honly result' hmem', hfinal] at hfinal'
          cases hfinal'
        · exact hall result' hmem' hfinal'
      · intro hall result' hmem'
        exact hall result' (List.mem_append_right es₁ hmem')

end

/-! ## Prompts -/

/-- The run of a prompt. -/
structure Run where
  args : Args
  effects : List Effect
  result : Except String (Option (Option Value))

/-- Prompts that are sent one after the other, each when the run before it returned or threw. -/
inductive Conversation (browser : Browser) : List Run → Prop
  | nil : Conversation browser []
  | prompt {runs : List Run} {args : Args} {fuel : ℕ} {es : List Effect}
    {r : Except String (Option (Option Value))} (hruns : Conversation browser runs)
    (hrun : runAgentLoop browser args fuel (runs.flatMap Run.effects) = (r, es))
    (hended : r ≠ .ok none) : Conversation browser (runs ++ [⟨args, es, r⟩])

/-- The runs of a conversation. -/
theorem Conversation.exists_run {runs : List Run} (h : Conversation browser runs) {run : Run}
    (hrun : run ∈ runs) :
    ∃ fuel t, runAgentLoop browser run.args fuel t = (run.result, run.effects) := by
  induction h with
  | nil => cases hrun
  | @prompt runs args fuel es r _ hr _ ih =>
    obtain hrun | hrun := List.mem_append.1 hrun
    · exact ih hrun
    · obtain rfl := List.mem_singleton.1 hrun
      exact ⟨fuel, _, hr⟩

/-- **Acks are delivered, except for the ones of last answers.** In a conversation in which every
receipt is signed, the acks of a run are sent to the node by its end, in the order of the receipts,
if and only if the last answer of the run carries no receipt; of a run that returns, that is the
final answer. If no run ends with a receipt, the node was sent an ack for every receipt. -/
theorem acks_delivered {runs : List Run} (hruns : Conversation browser runs)
    (hargs : ∀ run ∈ runs, run.args.Signs ∧ run.args.nodeUrl = url) :
    (∀ run ∈ runs, (Delivered url run.effects ↔ lastReceipted run.effects = false) ∧
      ∀ content, run.result = .ok (some content) → (lastReceipted run.effects = false ↔
        ∀ result, .answered result ∈ run.effects → isFinal result.response = .ok true →
          receipted result = false)) ∧
      ((∀ run ∈ runs, lastReceipted run.effects = false) →
        Delivered url (runs.flatMap Run.effects)) := by
  refine ⟨fun run hrun => ?_, fun hlast => ?_⟩
  · obtain ⟨hsigns, rfl⟩ := hargs run hrun
    obtain ⟨fuel, t, hrun⟩ := hruns.exists_run hrun
    refine ⟨delivered_iff hsigns hrun, fun content hcontent => ?_⟩
    rw [hcontent] at hrun
    exact foldl_awaits_of_returned hsigns hrun false
  · refine Relays.delivered (Relays.flatMap fun run hrun => ?_)
    obtain ⟨hsigns, rfl⟩ := hargs run hrun
    obtain ⟨fuel, t, hr⟩ := hruns.exists_run hrun
    obtain ⟨q, hrelays, hq⟩ := runAgentLoop_relays hsigns hr
    rw [hlast run hrun, eq_comm, Option.isSome_eq_false_iff, Option.isNone_iff_eq_none] at hq
    exact hq ▸ hrelays

/-! ## Two nodes -/

/-- A receipt of a node. -/
def receiptValue : Value := .object [
  ("breakdown", .object [("backend", .string "local"), ("pricePer1k", .string "1000"),
    ("roundTripCost", .string "15"), ("sessionId", .string "s"),
    ("usage", .object [("inputTokens", .number (.posInt 10)),
      ("outputTokens", .number (.posInt 5))])]),
  ("nodeSig", .string "00"),
  ("update", .object [("channelId", .string "0x00"), ("cumOwed", .string "15"),
    ("nonce", .number (.posInt 1))])]

def finalResponse : Value := .object [("content", .string "done"), ("type", .string "final")]

def toolCallResponse : Value := .object [("input", .null), ("name", .string "ls"),
  ("toolUseId", .string "t"), ("type", .string "toolCall")]

/-- A prompt on a channel, with a wallet that signs everything. -/
def prompting : Args where
  nodeUrl := "http://node"
  nodePub := []
  backend := .Local
  sessionId := "s"
  prompt := "list"
  tools _ := .ok none
  channelId := some "0x00"
  signAck := some fun _ _ => .ok ⟨⟨"0x00", 1, "15"⟩, "00"⟩

/-- A browser whose node sends a receipt with a tool call, and none with its final answer. -/
def calling : Browser where
  encrypt _ _ _ _ := .ok ⟨"", "", "", .replicate 32 0⟩
  fetch h := .ok ⟨true, 200, .ok "",
    .ok (.object (if h.length < 3 then [("receipt", receiptValue)] else []))⟩
  decrypt _ enc := .ok (if (enc.get "receipt").isSome then toolCallResponse else finalResponse)
  text _ := .ok "ls"

theorem acks_delivered_calling :
    (runAgentLoop calling prompting 2 []).1 = .ok (some (some (.string "done"))) ∧
      Delivered "http://node" (runAgentLoop calling prompting 2 []).2 := by
  have hrun : runAgentLoop calling prompting 2 [] =
      (.ok (some (some (.string "done"))), (runAgentLoop calling prompting 2 []).2) := rfl
  have hdelivered := (acks_delivered (.prompt .nil hrun (by rintro ⟨⟩)) fun run hmem => by
    obtain rfl := List.mem_singleton.1 hmem
    exact ⟨⟨_, rfl, fun _ _ => ⟨_, rfl⟩⟩, rfl⟩).1 _ (List.mem_singleton_self _)
  exact ⟨rfl, hdelivered.1.2 rfl⟩

/-- A browser whose node sends a receipt with its final answer. -/
def finishing : Browser where
  encrypt _ _ _ _ := .ok ⟨"", "", "", .replicate 32 0⟩
  fetch _ := .ok ⟨true, 200, .ok "", .ok (.object [("receipt", receiptValue)])⟩
  decrypt _ _ := .ok finalResponse
  text _ := .ok ""

/-- The ack of a final answer is signed and not sent. -/
theorem last_ack_dropped :
    (runAgentLoop finishing prompting 1 []).1 = .ok (some (some (.string "done"))) ∧
      ¬Delivered "http://node" (runAgentLoop finishing prompting 1 []).2 :=
  ⟨rfl, Relays.not_delivered (.event (.execute (by rintro _ ⟨⟩) (.answered (.event
    (.signed (.event (.event .nil)))))))⟩

end Flodex.Client
