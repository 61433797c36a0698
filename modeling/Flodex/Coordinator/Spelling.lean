import Flodex.Coordinator.Books
import Mathlib.Data.Set.Pairwise.Basic

/-!
# One entry for a key

The coordinator verifies a message under the key that its identity decodes to, and stores it under
the text of the identity. A hexadecimal text decodes in either case, so a key has many texts, each
with a registration and bids of its own. `one_entry_per_key` says when the maps are keyed by the
key after all (`OnePerKey`): when no accepted message spells a key differently from what the
coordinator holds of that key (`Consistent`).
-/

namespace Flodex.Coordinator

open Text Function

/-! ## Texts of a key -/

/-- Both texts decode, to one key. -/
def SameKey (a b : String) : Prop :=
  ∃ key, hexDecode (utf8 a.toList) = .ok key ∧ hexDecode (utf8 b.toList) = .ok key

/-- Both texts decode, to different keys. -/
def DistinctKeys (a b : String) : Prop :=
  ∃ key key', hexDecode (utf8 a.toList) = .ok key ∧ hexDecode (utf8 b.toList) = .ok key' ∧
    key ≠ key'

variable {a b : String}

theorem SameKey.symm (h : SameKey a b) : SameKey b a := by
  obtain ⟨key, ha, hb⟩ := h
  exact ⟨key, hb, ha⟩

/-- Two texts of one key are the same text in lower case. -/
theorem SameKey.map_toLower (h : SameKey a b) :
    a.toList.map Char.toLower = b.toList.map Char.toLower := by
  obtain ⟨key, ha, hb⟩ := h
  rw [map_toLower_of_hexDecode ha, map_toLower_of_hexDecode hb]

/-- The texts decode to different keys when they decode and are not texts of one key. -/
theorem distinctKeys_iff {key key' : List UInt8} (ha : hexDecode (utf8 a.toList) = .ok key)
    (hb : hexDecode (utf8 b.toList) = .ok key') : DistinctKeys a b ↔ ¬ SameKey a b := by
  constructor
  · rintro ⟨k, k', hk, hk', hne⟩ ⟨k'', hk₁, hk₂⟩
    rw [hk] at hk₁
    rw [hk'] at hk₂
    exact hne ((Except.ok.inj hk₁).trans (Except.ok.inj hk₂).symm)
  · intro hnot
    refine ⟨key, key', ha, hb, ?_⟩
    rintro rfl
    exact hnot ⟨key, ha, hb⟩

/-! ## The maps, keyed by the key -/

variable (s : State)

/-- Two entries, and two bids for one backend, have different keys; and the look at the bids for a
registered node finds the bid of its key. -/
structure OnePerKey : Prop where
  nodes : ∀ k entry k' entry', s.nodes k = some entry → s.nodes k' = some entry' → k ≠ k' →
    DistinctKeys entry.reg.identityPubkey entry'.reg.identityPubkey
  bids : ∀ k bid k' bid' backend, s.bids (k, backend) = some bid →
    s.bids (k', backend) = some bid' → k ≠ k' → DistinctKeys bid.identityPubkey bid'.identityPubkey
  found : ∀ k entry k' bid backend, s.nodes k = some entry → s.bids (k', backend) = some bid →
    SameKey entry.reg.identityPubkey bid.identityPubkey →
    s.bids (entry.reg.identityPubkey, backend) = some bid

/-- The texts under which the coordinator holds a registration, or a bid for the backend. -/
def texts (backend : BackendType) : Set String :=
  {k | (s.nodes k).isSome ∨ (s.bids (k, backend)).isSome}

/-- No key has two of the texts. -/
def OneText (texts : Set String) : Prop := texts.Pairwise fun a b => ¬ SameKey a b

variable (crypto : IdentityCrypto)

/-- The text of an accepted registration, or of an accepted bid, is the one under which the
coordinator holds what it has of the same key. -/
def Consistent : Input → Prop
  | .message _ (.register reg) => Verified crypto (.register reg) →
    ∀ backend, ∀ k ∈ texts s backend, SameKey reg.identityPubkey k → k = reg.identityPubkey
  | .message _ (.heartbeat _) => True
  | .postBid nowSecs bid => VerifiedBid crypto bid → nowSecs < bid.validUntil.toNat →
    ∀ k ∈ texts s bid.backend, SameKey bid.identityPubkey k → k = bid.identityPubkey
  | .gcNodes _ _ => True
  | .gcBids _ _ => True

variable {s crypto} {s' : State} {backend : BackendType}

/-- What verifies has an identity that decodes. -/
theorem hexDecode_of_verifySigned {identityPubkeyHex signatureHex : String}
    {canonical pubkey : List UInt8}
    (h : verifySigned crypto identityPubkeyHex signatureHex canonical = .ok pubkey) :
    hexDecode (utf8 identityPubkeyHex.toList) = .ok pubkey := by
  simp only [verifySigned, bind_eq_ok, mapError_eq_ok, pure_eq_ok] at h
  obtain ⟨key, hkey, -, -, -, -, rfl⟩ := h
  exact hkey

theorem Verified.decodes {m : Message} (h : Verified crypto m) :
    ∃ key, hexDecode (utf8 m.identity.toList) = .ok key := by
  obtain ⟨key, hkey⟩ := h
  exact ⟨key, hexDecode_of_verifySigned hkey⟩

theorem VerifiedBid.decodes {bid : Bid} (h : VerifiedBid crypto bid) :
    ∃ key, hexDecode (utf8 bid.identityPubkey.toList) = .ok key := by
  obtain ⟨key, hkey⟩ := h
  exact ⟨key, hexDecode_of_verifySigned hkey⟩

/-- An entry is held under the text that it names, which decodes. -/
theorem Authentic.entry (h : Authentic crypto s) {k : String} {entry : Entry}
    (hentry : s.nodes k = some entry) :
    entry.reg.identityPubkey = k ∧ ∃ key, hexDecode (utf8 k.toList) = .ok key := by
  obtain ⟨rfl, hverified⟩ := h.nodes k entry hentry
  exact ⟨rfl, hverified.decodes⟩

theorem Authentic.bid (h : Authentic crypto s) {k : String} {bid : Bid}
    (hbid : s.bids (k, backend) = some bid) :
    bid.identityPubkey = k ∧ ∃ key, hexDecode (utf8 k.toList) = .ok key := by
  obtain ⟨hslot, hverified⟩ := h.bids _ bid hbid
  obtain ⟨rfl, -⟩ := Prod.mk.inj hslot
  exact ⟨rfl, hverified.decodes⟩

/-- Two entries have different keys when the texts they are held under do. -/
theorem Authentic.distinct_entries (h : Authentic crypto s) {k k' : String} {entry entry' : Entry}
    (hk : s.nodes k = some entry) (hk' : s.nodes k' = some entry') :
    DistinctKeys entry.reg.identityPubkey entry'.reg.identityPubkey ↔ ¬ SameKey k k' := by
  obtain ⟨hname, _, hkey⟩ := h.entry hk
  obtain ⟨hname', _, hkey'⟩ := h.entry hk'
  rw [hname, hname', distinctKeys_iff hkey hkey']

theorem Authentic.distinct_bids (h : Authentic crypto s) {k k' : String} {bid bid' : Bid}
    (hk : s.bids (k, backend) = some bid) (hk' : s.bids (k', backend) = some bid') :
    DistinctKeys bid.identityPubkey bid'.identityPubkey ↔ ¬ SameKey k k' := by
  obtain ⟨hname, _, hkey⟩ := h.bid hk
  obtain ⟨hname', _, hkey'⟩ := h.bid hk'
  rw [hname, hname', distinctKeys_iff hkey hkey']

/-- **The maps are keyed by the key** exactly when the texts of each backend are of different
keys. -/
theorem onePerKey_iff (h : Authentic crypto s) :
    OnePerKey s ↔ ∀ backend, OneText (texts s backend) := by
  constructor
  · rintro hone backend k (hk | hk) k' (hk' | hk') hne hsame <;>
      obtain ⟨e, he⟩ := Option.isSome_iff_exists.1 hk <;>
      obtain ⟨e', he'⟩ := Option.isSome_iff_exists.1 hk'
    · exact (h.distinct_entries he he').1 (hone.nodes k e k' e' he he' hne) hsame
    · have := hone.found k e k' e' backend he he' (by rwa [(h.entry he).1, (h.bid he').1])
      rw [(h.entry he).1] at this
      exact hne ((h.bid this).1.symm.trans (h.bid he').1)
    · have := hone.found k' e' k e backend he' he (by
        rw [(h.entry he').1, (h.bid he).1]
        exact hsame.symm)
      rw [(h.entry he').1] at this
      exact hne ((h.bid he).1.symm.trans (h.bid this).1)
    · exact (h.distinct_bids he he').1 (hone.bids k e k' e' backend he he' hne) hsame
  · intro hone
    refine ⟨?_, ?_, ?_⟩
    · intro k entry k' entry' hk hk' hne
      rw [h.distinct_entries hk hk']
      exact hone .Local (.inl (Option.isSome_of_eq_some hk)) (.inl (Option.isSome_of_eq_some hk'))
        hne
    · intro k bid k' bid' backend hk hk' hne
      rw [h.distinct_bids hk hk']
      exact hone backend (.inr (Option.isSome_of_eq_some hk)) (.inr (Option.isSome_of_eq_some hk'))
        hne
    · intro k entry k' bid backend hk hk' hsame
      rw [(h.entry hk).1, (h.bid hk').1] at *
      by_contra hnot
      refine hone backend (.inl (Option.isSome_of_eq_some hk))
        (.inr (Option.isSome_of_eq_some hk')) ?_ hsame
      rintro rfl
      exact hnot hk'

/-! ## Steps and runs -/

/-- A set of texts of different keys takes a text more exactly when none of them is another text of
its key. -/
theorem oneText_insert {texts : Set String} (h : OneText texts) :
    OneText (insert a texts) ↔ ∀ k ∈ texts, SameKey a k → k = a := by
  have : Std.Symm fun a b => ¬ SameKey a b := ⟨fun a b hab hba => hab hba.symm⟩
  rw [OneText, Set.pairwise_insert_of_symm]
  constructor
  · rintro ⟨-, hnew⟩ k hk hsame
    by_contra hne
    exact hnew k hk (Ne.symm hne) hsame
  · intro hnew
    exact ⟨h, fun k hk hne hsame => hne (hnew k hk hsame).symm⟩

theorem OneText.mono {t t' : Set String} (h : OneText t) (hsub : t' ⊆ t) : OneText t' :=
  Set.Pairwise.mono hsub h

/-- The texts of a registry with an entry more. -/
theorem texts_setNode {k : String} {entry : Entry} :
    texts { s with nodes := update s.nodes k (some entry) } backend =
      insert k (texts s backend) := by
  ext k'
  by_cases hk : k' = k
  · subst hk
    simp [texts]
  · simp [texts, hk]

/-- The texts with a bid more. -/
theorem texts_setBid {bid : Bid} :
    texts { s with bids := update s.bids (slot bid) (some bid) } backend =
      if backend = bid.backend then insert bid.identityPubkey (texts s backend)
      else texts s backend := by
  ext k
  by_cases hk : slot bid = (k, backend)
  · obtain ⟨rfl, rfl⟩ := Prod.mk.inj hk
    simp [texts, slot]
  · split
    case isTrue hbackend =>
      subst hbackend
      have hne : k ≠ bid.identityPubkey := fun heq => hk (by rw [slot, heq])
      simp [texts, update_of_ne (Ne.symm hk), hne]
    case isFalse => simp [texts, update_of_ne (Ne.symm hk)]

/-- The text of the identity of an input that can add an entry or a bid. -/
def Input.text : Input → Option String
  | .message _ (.register reg) => some reg.identityPubkey
  | .message _ (.heartbeat _) => none
  | .postBid _ bid => some bid.identityPubkey
  | .gcNodes _ _ => none
  | .gcBids _ _ => none

/-- A handler adds no text but that of its input. -/
theorem mem_texts_of_ok {i : Input} (hi : handle crypto s i = .ok s') {k : String}
    (hk : k ∈ texts s' backend) : k ∈ texts s backend ∨ i.text = some k := by
  cases i with
  | message now m =>
    cases receive_eq_ok.1 hi with
    | @register reg verified =>
      rw [texts_setNode] at hk
      rcases hk with rfl | hk
      · exact .inr rfl
      · exact .inl hk
    | @heartbeat hb entry verified listed =>
      rw [texts_setNode, Set.insert_eq_of_mem (.inl (Option.isSome_of_eq_some listed))] at hk
      exact .inl hk
  | postBid nowSecs bid =>
    obtain ⟨-, -, rfl⟩ := postBid_eq_ok.1 hi
    rw [texts_setBid] at hk
    split_ifs at hk with hbackend
    · rcases hk with rfl | hk
      · exact .inr rfl
      · exact .inl hk
    · exact .inl hk
  | gcNodes shard now =>
    obtain rfl := Except.ok.inj hi
    exact .inl (hk.imp_left fun hk => Option.isSome_of_isSome_filter _ _ hk)
  | gcBids shard nowSecs =>
    obtain rfl := Except.ok.inj hi
    exact .inl (hk.imp_right fun hk => Option.isSome_of_isSome_filter _ _ hk)

/-- A refused input is consistent. -/
theorem consistent_of_error {i : Input} {r : Rejection} (hi : handle crypto s i = .error r) :
    Consistent s crypto i := by
  cases i with
  | message now m =>
    cases m with
    | register reg =>
      intro verified
      have hok : receive crypto s now (.register reg) = .ok _ :=
        receive_eq_ok.2 (.register verified)
      exact absurd (hi.symm.trans hok) (by simp)
    | heartbeat hb => trivial
  | postBid nowSecs bid =>
    intro verified valid
    have hok := postBid_eq_ok (s := s).2 ⟨verified, valid, rfl⟩
    exact absurd (hi.symm.trans hok) (by simp)
  | gcNodes shard now => trivial
  | gcBids shard nowSecs => trivial

/-- A handler keeps the texts of different keys exactly when its input is consistent. -/
theorem oneText_of_ok {i : Input} (hone : ∀ backend, OneText (texts s backend))
    (hi : handle crypto s i = .ok s') :
    (∀ backend, OneText (texts s' backend)) ↔ Consistent s crypto i := by
  cases i with
  | message now m =>
    cases receive_eq_ok.1 hi with
    | @register reg verified =>
      simp only [texts_setNode, oneText_insert (hone _)]
      exact ⟨fun hall _ => hall, fun hall => hall verified⟩
    | @heartbeat hb entry verified listed =>
      refine ⟨fun _ => trivial, fun _ backend => ?_⟩
      rw [texts_setNode, Set.insert_eq_of_mem (.inl (Option.isSome_of_eq_some listed))]
      exact hone backend
  | postBid nowSecs bid =>
    obtain ⟨verified, valid, rfl⟩ := postBid_eq_ok.1 hi
    simp only [texts_setBid]
    constructor
    · intro hall _ _
      have hbackend := hall bid.backend
      rwa [if_pos rfl, oneText_insert (hone _)] at hbackend
    · intro hall backend
      by_cases hbackend : backend = bid.backend
      · subst hbackend
        rw [if_pos rfl, oneText_insert (hone _)]
        exact hall verified valid
      · rw [if_neg hbackend]
        exact hone backend
  | gcNodes shard now =>
    refine ⟨fun _ => trivial, fun _ backend => (hone backend).mono fun k hk => ?_⟩
    exact (mem_texts_of_ok hi hk).resolve_right (by simp [Input.text])
  | gcBids shard nowSecs =>
    refine ⟨fun _ => trivial, fun _ backend => (hone backend).mono fun k hk => ?_⟩
    exact (mem_texts_of_ok hi hk).resolve_right (by simp [Input.text])

/-- **A step keeps the maps keyed by the key** exactly when it is consistent. -/
theorem onePerKey_next {i : Input} (h : Authentic crypto s) (hone : OnePerKey s) :
    OnePerKey ((books crypto).next s i) ↔ Consistent s crypto i := by
  cases hi : handle crypto s i with
  | error r =>
    have hnext : (books crypto).next s i = s := by simp only [books, hi]
    rw [hnext]
    exact ⟨fun _ => consistent_of_error hi, fun _ => hone⟩
  | ok s' =>
    have hnext : (books crypto).next s i = s' := by simp only [books, hi]
    rw [hnext, onePerKey_iff (h.handle hi)]
    exact oneText_of_ok ((onePerKey_iff h).1 hone) hi

theorem onePerKey_start : OnePerKey State.start :=
  ⟨by rintro k entry k' entry' ⟨⟩, by rintro k bid k' bid' backend ⟨⟩,
    by rintro k entry k' bid backend ⟨⟩⟩

/-- **One entry for a key**: the maps are keyed by the key in every state of a run exactly when each
of its steps is consistent. -/
theorem one_entry_per_key {h : List (Event State Input)} (H : (books crypto).History h s) :
    ((∀ e ∈ h, OnePerKey e.post) ↔ ∀ e ∈ h, Consistent e.pre crypto e.act) ∧
    ((∀ e ∈ h, Consistent e.pre crypto e.act) → OnePerKey s) := by
  obtain ⟨s₀, rfl, r⟩ := H
  induction r with
  | nil => simp [onePerKey_start]
  | @snoc h t i run legal ih =>
    have hauth : Authentic crypto t := reachable_authentic ⟨_, rfl, run⟩
    simp only [List.forall_mem_append, List.forall_mem_singleton]
    refine ⟨?_, fun hall => (onePerKey_next hauth (ih.2 hall.1)).2 hall.2⟩
    constructor
    · rintro ⟨hpast, hlast⟩
      have hconsistent := ih.1.1 hpast
      exact ⟨hconsistent, (onePerKey_next hauth (ih.2 hconsistent)).1 hlast⟩
    · rintro ⟨hpast, hlast⟩
      exact ⟨ih.1.2 hpast, (onePerKey_next hauth (ih.2 hpast)).2 hlast⟩

/-! ## Lower case -/

/-- The text has no upper-case letters. -/
def Lower (text : String) : Prop := text.toList.map Char.toLower = text.toList

/-- A key has one text in lower case. -/
theorem SameKey.eq_of_lower (h : SameKey a b) (ha : Lower a) (hb : Lower b) : b = a := by
  have hlower := h.map_toLower
  rw [ha, hb] at hlower
  exact (String.toList_injective hlower).symm

/-- An input in lower case is consistent with texts in lower case. -/
theorem consistent_of_lower {i : Input} (hs : ∀ backend, ∀ k ∈ texts s backend, Lower k)
    (hi : ∀ text, i.text = some text → Lower text) : Consistent s crypto i := by
  cases i with
  | message now m =>
    cases m with
    | register reg =>
      intro _ backend k hk hsame
      exact hsame.eq_of_lower (hi _ rfl) (hs backend k hk)
    | heartbeat hb => trivial
  | postBid nowSecs bid =>
    intro _ _ k hk hsame
    exact hsame.eq_of_lower (hi _ rfl) (hs bid.backend k hk)
  | gcNodes shard now => trivial
  | gcBids shard nowSecs => trivial

/-! ## A key with two texts -/

namespace Deployment

/-- A key whose text has letters. -/
def lettered : List UInt8 := 2 :: .replicate 32 0xab

/-- The text of the key that a node of the repository sends. -/
def lowerText : String := .ofList (hexEncode lettered)

/-- Another text of the key. -/
def upperText : String := .ofList ((hexEncode lettered).map Char.toUpper)

theorem hexDecode_lowerText : hexDecode (utf8 lowerText.toList) = .ok lettered := by
  rw [lowerText, String.toList_ofList, hexDecode_hexEncode]

theorem hexDecode_upperText : hexDecode (utf8 upperText.toList) = .ok lettered := by
  rw [upperText, String.toList_ofList]
  decide +kernel

theorem sameKey_texts : SameKey lowerText upperText :=
  ⟨lettered, hexDecode_lowerText, hexDecode_upperText⟩

theorem lowerText_ne_upperText : lowerText ≠ upperText := by
  intro heq
  have := String.ofList_injective heq
  revert this
  decide +kernel

/-- A registration under a text, not signed yet. -/
def unsignedAs (text : String) : NodeRegistration :=
  ⟨text, "", "http://node", [.Local], 8, [], "", ""⟩

/-- The registration, signed with the key. -/
def registrationAs (text : String) : NodeRegistration :=
  { unsignedAs text with signature := .ofList (hexEncode
      (IdentityCrypto.symbolicSign lettered (canonicalRegisterBytes (unsignedAs text)))) }

theorem verified_registrationAs {text : String}
    (hdecode : hexDecode (utf8 text.toList) = .ok lettered) :
    Verified .symbolic (.register (registrationAs text)) := by
  have hcanonical : canonicalRegisterBytes (registrationAs text) =
    canonicalRegisterBytes (unsignedAs text) := canonicalRegisterBytes_sign ..
  have hlength : lettered.length = identityPubkeySize := rfl
  have hverify := verifySigned_of_hexDecode hdecode hlength
    (canonicalRegisterBytes (registrationAs text))
  refine ⟨lettered, ?_⟩
  rw [Message.canonical]
  rw [hcanonical] at hverify ⊢
  exact hverify

/-- The node registers under a text of its key. -/
theorem exists_registered {text : String} (hdecode : hexDecode (utf8 text.toList) = .ok lettered)
    {h : List (Event State Input)} (H : (books .symbolic).History h s) (now : ℕ) :
    ∃ e, (books .symbolic).History (h ++ [e]) e.post ∧ e.pre = s ∧
      e.act = .message now (.register (registrationAs text)) ∧
      e.post = { s with nodes := update s.nodes text (some ⟨registrationAs text, now⟩) } :=
  ⟨_, H.concat (a := .message now (.register (registrationAs text))) trivial, rfl, rfl,
    next_message (verified_registrationAs hdecode)⟩

/-- A bid under a text, not signed yet. -/
def unsignedBidAs (text : String) : Bid := ⟨text, .Local, "5", 8, 180, "", ""⟩

/-- The bid, signed with the key. -/
def bidAs (text : String) : Bid :=
  { unsignedBidAs text with signature := .ofList (hexEncode
      (IdentityCrypto.symbolicSign lettered (canonicalBidBytes (unsignedBidAs text)))) }

theorem verifiedBid_bidAs {text : String}
    (hdecode : hexDecode (utf8 text.toList) = .ok lettered) :
    VerifiedBid .symbolic (bidAs text) := by
  have hcanonical : canonicalBidBytes (bidAs text) = canonicalBidBytes (unsignedBidAs text) :=
    canonicalBidBytes_sign ..
  have hlength : lettered.length = identityPubkeySize := rfl
  have hverify := verifySigned_of_hexDecode hdecode hlength (canonicalBidBytes (bidAs text))
  refine ⟨lettered, ?_⟩
  rw [hcanonical] at hverify ⊢
  exact hverify

theorem lower_lowerText : Lower lowerText := by
  rw [Lower, lowerText, String.toList_ofList]
  decide +kernel

/-- The state after two registrations and a bid of the node. -/
def offered : State where
  nodes := update (fun _ => none) lowerText (some ⟨registrationAs lowerText, 10⟩)
  bids := update (fun _ => none) (lowerText, .Local) (some (bidAs lowerText))

/-- The node registers twice and bids, each time under the text that it sends. -/
theorem exists_offered : ∃ h, (books .symbolic).History h offered ∧ h.length = 3 ∧
    ∀ e ∈ h, (∀ text, e.act.text = some text → Lower text) ∧
      ∀ backend, ∀ k ∈ texts e.pre backend, Lower k := by
  have H₀ : (books .symbolic).History [] State.start := ⟨State.start, rfl, .nil⟩
  obtain ⟨e₁, H₁, hpre₁, hact₁, hpost₁⟩ := exists_registered hexDecode_lowerText H₀ 0
  obtain ⟨e₂, H₂, hpre₂, hact₂, hpost₂⟩ := exists_registered hexDecode_lowerText H₁ 10
  have hpost₃ : (books .symbolic).next e₂.post (.postBid 120 (bidAs lowerText)) = offered := by
    have hvalid : 120 < (bidAs lowerText).validUntil.toNat := (by decide : 120 < 180)
    have hslot : slot (bidAs lowerText) = (lowerText, .Local) := rfl
    rw [next_postBid (verifiedBid_bidAs hexDecode_lowerText) hvalid, hpost₂, hpost₁, hslot]
    simp only [offered, State.start, update_idem]
  have H₃ := H₂.concat (a := .postBid 120 (bidAs lowerText)) trivial
  rw [hpost₃] at H₃
  have htext : ∀ text, some lowerText = some text → Lower text := by
    rintro text ⟨⟩
    exact lower_lowerText
  have hlisted : ∀ {s : State} {entry : Entry}, (∀ backend, ∀ k ∈ texts s backend, Lower k) →
      ∀ backend, ∀ k ∈ texts { s with nodes := update s.nodes lowerText (some entry) } backend,
        Lower k := by
    intro s entry hs backend k hk
    rw [texts_setNode] at hk
    rcases hk with rfl | hk
    · exact lower_lowerText
    · exact hs backend k hk
  have htexts₀ : ∀ backend, ∀ k ∈ texts State.start backend, Lower k := by
    rintro backend k (hk | hk) <;> simp [State.start] at hk
  have htexts₁ : ∀ backend, ∀ k ∈ texts e₁.post backend, Lower k := hpost₁ ▸ hlisted htexts₀
  have htexts₂ : ∀ backend, ∀ k ∈ texts e₂.post backend, Lower k := hpost₂ ▸ hlisted htexts₁
  refine ⟨_, H₃, rfl, ?_⟩
  simp only [List.nil_append, List.cons_append, List.forall_mem_cons, hact₁, hact₂, hpre₁, hpre₂]
  exact ⟨⟨htext, htexts₀⟩, ⟨htext, htexts₁⟩, ⟨htext, htexts₂⟩, List.forall_mem_nil _⟩

end Deployment

open Deployment

/-- **A key with two entries**: the owner of a key registers under each of two texts of it, and the
coordinator holds both registrations. -/
theorem two_entries_of_one_key : ∃ h s, (books .symbolic).History h s ∧
    s.nodes lowerText = some ⟨registrationAs lowerText, 0⟩ ∧
    s.nodes upperText = some ⟨registrationAs upperText, 0⟩ ∧ lowerText ≠ upperText ∧
    SameKey (registrationAs lowerText).identityPubkey (registrationAs upperText).identityPubkey ∧
    ¬ OnePerKey s := by
  have H₀ : (books .symbolic).History [] State.start := ⟨State.start, rfl, .nil⟩
  obtain ⟨e₁, H₁, -, -, hpost₁⟩ := exists_registered hexDecode_lowerText H₀ 0
  obtain ⟨e₂, H₂, -, -, hpost₂⟩ := exists_registered hexDecode_upperText H₁ 0
  have hlower : e₂.post.nodes lowerText = some ⟨registrationAs lowerText, 0⟩ := by
    simp only [hpost₂, hpost₁, update_of_ne lowerText_ne_upperText, update_self]
  have hupper : e₂.post.nodes upperText = some ⟨registrationAs upperText, 0⟩ := by
    simp only [hpost₂, update_self]
  refine ⟨_, _, H₂, hlower, hupper, lowerText_ne_upperText, sameKey_texts, fun hone => ?_⟩
  have hdistinct := hone.nodes _ _ _ _ hlower hupper lowerText_ne_upperText
  exact (distinctKeys_iff hexDecode_lowerText hexDecode_upperText).1 hdistinct sameKey_texts

/-- The node registers twice and bids, and there is one entry and one bid for its key. -/
theorem one_entry_per_key_registered : ∃ h, (books .symbolic).History h offered ∧ h.length = 3 ∧
    (∀ e ∈ h, OnePerKey e.post) ∧ OnePerKey offered := by
  obtain ⟨h, H, hlength, hlower⟩ := exists_offered
  obtain ⟨hiff, hone⟩ := one_entry_per_key H
  have hconsistent : ∀ e ∈ h, Consistent e.pre .symbolic e.act := fun e he =>
    consistent_of_lower (hlower e he).2 (hlower e he).1
  exact ⟨h, H, hlength, hiff.2 hconsistent, hone hconsistent⟩

/-! ## Texts in lower case -/

/-- **When everybody writes identities in lower case**, as the nodes of the repository do, the maps
are keyed by the key. -/
theorem onePerKey_of_lower {h : List (Event State Input)} (H : (books crypto).History h s)
    (hlower : ∀ e ∈ h, ∀ text, e.act.text = some text → Lower text) : OnePerKey s := by
  obtain ⟨s₀, rfl, r⟩ := H
  refine (r.invariantHistory
    (fun _ t => Authentic crypto t ∧ OnePerKey t ∧ ∀ backend, ∀ k ∈ texts t backend, Lower k)
    (fun _ e => ∀ text, e.act.text = some text → Lower text) (along_of_forall hlower) ?_ ?_).2.1
  · refine ⟨authentic_start, onePerKey_start, ?_⟩
    rintro backend k (hk | hk) <;> simp [State.start] at hk
  · rintro h t i run ⟨hauth, hone, htexts⟩ - htext
    refine ⟨reachable_authentic ⟨_, rfl, run.snoc trivial⟩,
      (onePerKey_next hauth hone).2 (consistent_of_lower htexts htext), fun backend k hk => ?_⟩
    cases hi : handle crypto t i with
    | error r =>
      rw [show (books crypto).next t i = t by simp only [books, hi]] at hk
      exact htexts backend k hk
    | ok t' =>
      rw [show (books crypto).next t i = t' by simp only [books, hi]] at hk
      rcases mem_texts_of_ok hi hk with hk | hk
      · exact htexts backend k hk
      · exact htext k hk

/-- The text of the node is in lower case. -/
theorem onePerKey_of_lower_offered : OnePerKey offered := by
  obtain ⟨h, H, -, hlower⟩ := exists_offered
  exact onePerKey_of_lower H fun e he => (hlower e he).1

end Flodex.Coordinator
