import SecMail.Store.Durable

/-!
# Texts in memory

The texts of a kind, object by object: which uids have one, and which objects lack theirs.  A search
adds at most an object without a text (`ADZStoreMsgToCoreData.Adds`), a completion changes the text
of one object (`RenderingOp.mem_texts_fill`), and the cache holds at most ten items when it is next
read (`cached_setCached_of_hasRoom`, `cached_setCached_of_not_hasRoom`).
-/

namespace SecMail

variable {τ : Type*}

/-- What is to be checked of both kinds. -/
instance (Q : Kind → Prop) [DecidablePred Q] : Decidable (∀ kind, Q kind) :=
  decidable_of_iff (Q .plaintext ∧ Q .html)
    ⟨fun h kind => by cases kind <;> [exact h.1; exact h.2], fun h => ⟨h _, h _⟩⟩

/-! ### Sizes of association lists -/

section AList

variable {α : Type*} {β : α → Type*} [DecidableEq α] {d : AList β} {a : α} {b : β a}

theorem length_keys_insert : (d.insert a b).keys.length = (d.erase a).keys.length + 1 := by
  rw [AList.keys_insert, AList.keys_erase, List.length_cons]

theorem length_keys_erase_le : (d.erase a).keys.length ≤ d.keys.length := by
  rw [AList.keys_erase]
  exact List.length_erase_le

/-- Replacing an item does not change the number of items. -/
theorem length_keys_insert_of_lookup {b' : β a} (h : d.lookup a = some b') :
    (d.insert a b).keys.length = d.keys.length := by
  have hmem : a ∈ d.keys := AList.mem_keys.1 (AList.lookup_isSome.1 (by simp [h]))
  have hpos := List.length_pos_of_mem hmem
  rw [AList.keys_insert, List.length_cons, List.length_erase_of_mem hmem]
  omega

end AList

/-! ### The texts of a context -/

namespace NSManagedObjectContext

/-- The objects of a kind: the key and the text of each. -/
def texts (c : NSManagedObjectContext τ) : Kind → List (NSString × Option τ)
  | .plaintext => c.summaries.map fun e => (e.obj.szUid, e.obj.szPlaintext)
  | .html => c.htmls.map fun e => (e.obj.szUid, e.obj.szHtml)

/-- Some object of the kind for `k` has a text. -/
def HasText (c : NSManagedObjectContext τ) (kind : Kind) (k : NSString) : Prop :=
  ∃ t, (k, some t) ∈ c.texts kind

/-- Some object of the kind for `k` has no text. -/
def Lacks (c : NSManagedObjectContext τ) (kind : Kind) (k : NSString) : Prop :=
  (k, none) ∈ c.texts kind

/-- Of the objects of the kind for `k`, one has a text and another has not. -/
def Divided (c : NSManagedObjectContext τ) (kind : Kind) (k : NSString) : Prop :=
  c.HasText kind k ∧ c.Lacks kind k

section Decidable

variable [DecidableEq τ] (c : NSManagedObjectContext τ)

instance (kind : Kind) (k : NSString) : Decidable (c.HasText kind k) :=
  decidable_of_iff (∃ x ∈ c.texts kind, x.1 = k ∧ x.2.isSome = true) (by
    constructor
    · rintro ⟨⟨_, x⟩, hx, rfl, hsome⟩
      obtain ⟨t, rfl⟩ := Option.isSome_iff_exists.1 hsome
      exact ⟨t, hx⟩
    · rintro ⟨t, ht⟩
      exact ⟨_, ht, rfl, rfl⟩)

instance (kind : Kind) (k : NSString) : Decidable (c.Divided kind k) :=
  inferInstanceAs (Decidable (_ ∧ _ ∈ _))

/-- Only the keys of objects are divided. -/
instance (kind : Kind) (Q : NSString → Prop) [DecidablePred Q] :
    Decidable (∀ k, c.Divided kind k → Q k) :=
  decidable_of_iff (∀ x ∈ c.texts kind, c.Divided kind x.1 → Q x.1)
    ⟨fun h _ hk => h _ hk.2 hk, fun h _ _ hk => h _ hk⟩

end Decidable

variable {c : NSManagedObjectContext τ} {kind : Kind} {k : NSString} {x : Option τ}

theorem mem_texts_plaintext : (k, x) ∈ c.texts .plaintext ↔
    ∃ i o, c.summaries.object i = some o ∧ o.szUid = k ∧ o.szPlaintext = x := by
  simp only [texts, List.mem_map, Prod.mk.injEq]
  constructor
  · rintro ⟨e, he, hk, hx⟩
    obtain ⟨i, hi⟩ := List.mem_iff_getElem?.1 he
    exact ⟨i, e.obj, by simp [Table.object, hi], hk, hx⟩
  · rintro ⟨i, o, ho, hk, hx⟩
    obtain ⟨e, he, rfl⟩ := Option.map_eq_some_iff.1 ho
    exact ⟨e, List.mem_of_getElem? he, hk, hx⟩

theorem mem_texts_html : (k, x) ∈ c.texts .html ↔
    ∃ i o, c.htmls.object i = some o ∧ o.szUid = k ∧ o.szHtml = x := by
  simp only [texts, List.mem_map, Prod.mk.injEq]
  constructor
  · rintro ⟨e, he, hk, hx⟩
    obtain ⟨i, hi⟩ := List.mem_iff_getElem?.1 he
    exact ⟨i, e.obj, by simp [Table.object, hi], hk, hx⟩
  · rintro ⟨i, o, ho, hk, hx⟩
    obtain ⟨e, he, rfl⟩ := Option.map_eq_some_iff.1 ho
    exact ⟨e, List.mem_of_getElem? he, hk, hx⟩

@[simp] theorem texts_save : c.save.texts kind = c.texts kind := by
  unfold save
  split_ifs
  · cases kind <;> simp [texts, Entity.commit, Function.comp_def]
  · rfl

@[simp] theorem hasText_save : c.save.HasText kind k ↔ c.HasText kind k := by simp [HasText]

@[simp] theorem lacks_save : c.save.Lacks kind k ↔ c.Lacks kind k := by simp [Lacks]

@[simp] theorem divided_save : c.save.Divided kind k ↔ c.Divided kind k := by simp [Divided]

/-- The objects of a new context have their texts. -/
theorem not_lacks_restart : ¬ c.restart.Lacks kind k := by
  cases kind with
  | plaintext =>
    rintro h
    obtain ⟨i, o, ho, -, hx⟩ := mem_texts_plaintext.1 h
    obtain ⟨r, -, rfl⟩ := Option.map_eq_some_iff.1 (Entity.object_reload.symm.trans ho)
    cases hx
  | html =>
    rintro h
    obtain ⟨i, o, ho, -, hx⟩ := mem_texts_html.1 h
    obtain ⟨r, -, rfl⟩ := Option.map_eq_some_iff.1 (Entity.object_reload.symm.trans ho)
    cases hx

/-- A plain text is recorded in the index. -/
theorem Indexed.recorded_of_hasText (h : c.Indexed) (ht : c.HasText .plaintext k) :
    k ∈ uidTokens c.szUids := by
  obtain ⟨t, ht⟩ := ht
  obtain ⟨i, o, ho, rfl, hx⟩ := mem_texts_plaintext.1 ht
  exact h.recorded i o t ho hx

end NSManagedObjectContext

namespace RenderingOp

variable {s : ADZStoreMsgToCoreData τ} {op : RenderingOp τ} {result x : Option τ} {kind : Kind}
  {k : NSString}

/-- The object of the operation has the result. -/
theorem mem_texts_fill_self (hl : op.Linked s.managedObjectContext) :
    (op.msg.szUid, result) ∈ (op.fill s result).texts op.kind := by
  cases op with
  | plainTextBody m σ i =>
    obtain ⟨o, ho, hk⟩ := hl
    exact NSManagedObjectContext.mem_texts_plaintext.2
      ⟨i, { o with szPlaintext := result }, by simp [fill, ho], hk, rfl⟩
  | html msg σ i =>
    obtain ⟨o, ho, hk⟩ := hl
    exact NSManagedObjectContext.mem_texts_html.2
      ⟨i, { o with szHtml := result }, by simp [fill, ho], hk, rfl⟩

/-- A text after the assignments is the result, or was there before. -/
theorem mem_texts_fill (hl : op.Linked s.managedObjectContext)
    (h : (k, x) ∈ (op.fill s result).texts kind) :
    (kind = op.kind ∧ k = op.msg.szUid ∧ x = result) ∨
      (k, x) ∈ s.managedObjectContext.texts kind := by
  cases op with
  | plainTextBody m σ i =>
    cases kind with
    | html => exact .inr h
    | plaintext =>
      obtain ⟨o, ho, hk⟩ := hl
      obtain ⟨j, o', ho', rfl, rfl⟩ := NSManagedObjectContext.mem_texts_plaintext.1 h
      rw [fill, ADZStoreMsgToCoreData.fillPlaintext_summaries] at ho'
      obtain ⟨o₁, ho₁, rfl⟩ := Table.object_update_eq_some ho'
      split_ifs with hij
      · subst hij
        cases ho.symm.trans ho₁
        exact .inl ⟨rfl, hk, rfl⟩
      · exact .inr (NSManagedObjectContext.mem_texts_plaintext.2 ⟨j, o₁, ho₁, rfl, rfl⟩)
  | html msg σ i =>
    cases kind with
    | plaintext => exact .inr h
    | html =>
      obtain ⟨o, ho, hk⟩ := hl
      obtain ⟨j, o', ho', rfl, rfl⟩ := NSManagedObjectContext.mem_texts_html.1 h
      rw [fill, ADZStoreMsgToCoreData.fillHtml_htmls] at ho'
      obtain ⟨o₁, ho₁, rfl⟩ := Table.object_update_eq_some ho'
      split_ifs with hij
      · subst hij
        cases ho.symm.trans ho₁
        exact .inl ⟨rfl, hk, rfl⟩
      · exact .inr (NSManagedObjectContext.mem_texts_html.2 ⟨j, o₁, ho₁, rfl, rfl⟩)

/-- The texts of the other uids stay. -/
theorem mem_texts_fill_of_ne (hl : op.Linked s.managedObjectContext)
    (h : (k, x) ∈ s.managedObjectContext.texts kind)
    (hne : ¬ (kind = op.kind ∧ k = op.msg.szUid)) :
    (k, x) ∈ (op.fill s result).texts kind := by
  cases op with
  | plainTextBody m σ i =>
    cases kind with
    | html => exact h
    | plaintext =>
      obtain ⟨o, ho, hk⟩ := hl
      obtain ⟨j, o', ho', rfl, rfl⟩ := NSManagedObjectContext.mem_texts_plaintext.1 h
      refine NSManagedObjectContext.mem_texts_plaintext.2 ⟨j, o', ?_, rfl, rfl⟩
      rw [fill, ADZStoreMsgToCoreData.fillPlaintext_summaries, Table.object_update_of_ne, ho']
      rintro rfl
      cases ho.symm.trans ho'
      exact hne ⟨rfl, hk⟩
  | html msg σ i =>
    cases kind with
    | plaintext => exact h
    | html =>
      obtain ⟨o, ho, hk⟩ := hl
      obtain ⟨j, o', ho', rfl, rfl⟩ := NSManagedObjectContext.mem_texts_html.1 h
      refine NSManagedObjectContext.mem_texts_html.2 ⟨j, o', ?_, rfl, rfl⟩
      rw [fill, ADZStoreMsgToCoreData.fillHtml_htmls, Table.object_update_of_ne, ho']
      rintro rfl
      cases ho.symm.trans ho'
      exact hne ⟨rfl, hk⟩

end RenderingOp

/-! ### What the cache keeps -/

namespace ADZStoreMsgToCoreData

variable {s : ADZStoreMsgToCoreData τ} {order : FetchOrders} {k k' : NSString}
  {item : ADZCached τ}

/-- The next call of the getter drops all items. -/
def overfull (s : ADZStoreMsgToCoreData τ) : Bool :=
  s._dicCached.any fun d => decide (10 < d.keys.length)

/-- There are fewer than ten items for other uids. -/
def hasRoom (s : ADZStoreMsgToCoreData τ) (k : NSString) : Bool :=
  s._dicCached.any fun d => decide ((d.erase k).keys.length < 10)

theorem cached_dicCached_of_not_overfull (h : s.overfull = false) :
    s.dicCached.cached k = s.cached k := by
  unfold dicCached overfull at *
  split
  · rename_i d hd
    have hlen : ¬ 10 < d.keys.length := by simpa [hd] using h
    rw [if_neg hlen]
  · rename_i hd
    simp [cached, hd]

theorem cached_dicCached_of_overfull (h : s.overfull = true) : s.dicCached.cached k = none := by
  obtain ⟨d, hd, hlen⟩ := (Option.any_eq_true _ _).1 h
  have hlen : 10 < d.keys.length := by simpa using hlen
  simp [dicCached, hd, hlen, cached]

theorem overfull_dicCached : s.dicCached.overfull = false := by
  unfold dicCached
  split
  · rename_i d hd
    split_ifs with hlen
    · simp [overfull]
    · simpa [overfull, hd] using hlen
  · simp [overfull]

theorem overfull_removeCached (h : s.overfull = false) : (s.removeCached k).overfull = false := by
  cases hd : s._dicCached with
  | none => simp [overfull, removeCached, hd]
  | some d =>
    have hlen : ¬ 10 < d.keys.length := by simpa [overfull, hd] using h
    have hle := length_keys_erase_le (d := d) (a := k)
    simp only [overfull, removeCached, hd, Option.map_some, Option.any_some,
      decide_eq_false_iff_not]
    omega

theorem overfull_setCachedHtml {t : Option τ} (h : s.overfull = false) :
    (s.setCachedHtml k t).overfull = false := by
  unfold setCachedHtml
  split
  · rename_i item hitem
    obtain ⟨d, hd, hk⟩ := Option.bind_eq_some_iff.1 hitem
    have hlen : ¬ 10 < d.keys.length := by simpa [overfull, hd] using h
    simp only [overfull, setCached, hd, Option.map_some, Option.any_some,
      length_keys_insert_of_lookup hk, decide_eq_false_iff_not]
    exact hlen
  · exact h

/-- With room for it, an item is cached, and the others stay. -/
theorem cached_setCached_of_hasRoom (h : s.hasRoom k = true) :
    (s.setCached k item).overfull = false ∧
      ∀ k', (s.setCached k item).cached k' = if k' = k then some item else s.cached k' := by
  obtain ⟨d, hd, hlen⟩ := (Option.any_eq_true _ _).1 h
  have hlen : (d.erase k).keys.length < 10 := by simpa using hlen
  refine ⟨?_, fun k' => ?_⟩
  · simp only [overfull, setCached, hd, Option.map_some, Option.any_some, length_keys_insert,
      decide_eq_false_iff_not]
    omega
  · split_ifs with hk
    · subst hk
      simp [cached, setCached, hd]
    · simp [cached, setCached, hd, AList.lookup_insert_ne hk]

/-- Without room for it, the next call of the getter finds no item. -/
theorem cached_setCached_of_not_hasRoom (h : s.hasRoom k = false) :
    (s.setCached k item).dicCached.cached k' = none := by
  cases hd : s._dicCached with
  | none => simp [setCached, dicCached, cached, hd]
  | some d =>
    have hlen : ¬ (d.erase k).keys.length < 10 := by simpa [hasRoom, hd] using h
    refine cached_dicCached_of_overfull ?_
    simp only [overfull, setCached, hd, Option.map_some, Option.any_some, length_keys_insert,
      decide_eq_true_eq]
    omega

theorem cached_setCached_eq {item : ADZCached τ} {k' : NSString} :
    (s.setCached k item).cached k' =
      if k' = k then s._dicCached.map fun _ => item else s.cached k' := by
  cases hd : s._dicCached with
  | none => simp [cached, setCached, hd]
  | some d =>
    split_ifs with hk
    · subst hk
      simp [cached, setCached, hd]
    · simp [cached, setCached, hd, AList.lookup_insert_ne hk]

theorem cached_removeCached_of_ne {k' : NSString} (h : k' ≠ k) :
    (s.removeCached k).cached k' = s.cached k' := by
  cases hd : s._dicCached with
  | none => simp [cached, removeCached, hd]
  | some d => simp [cached, removeCached, hd, AList.lookup_erase_ne h]

theorem cached_setCachedHtml_eq {t : Option τ} {k' : NSString} :
    (s.setCachedHtml k t).cached k' =
      if k' = k then (s.cached k).map fun item => { item with szHtml := t } else s.cached k' := by
  unfold setCachedHtml
  split
  · rename_i item hitem
    obtain ⟨d, hd, -⟩ := Option.bind_eq_some_iff.1 hitem
    rw [cached_setCached_eq, hd, hitem]
    rfl
  · rename_i hnone
    split_ifs with hk
    · rw [hk, hnone]
      rfl
    · rfl

@[simp] theorem uids_dicCached : (s.uids order)._dicCached = s._dicCached := by
  unfold uids; split <;> (try split) <;> rfl

end ADZStoreMsgToCoreData

/-! ### What a search adds -/

namespace ADZStoreMsgToCoreData

variable {s : ADZStoreMsgToCoreData τ} {order : FetchOrders} {kind : Kind} {k : NSString}
  {m : MCOIMAPMessage}

/-- The plain text in the `SUMMARY` object that a fetch for the key lists first. -/
def storedPlaintext (s : ADZStoreMsgToCoreData τ) (order : FetchOrders) (k : NSString) : Option τ :=
  (s.managedObjectContext.summaries.fetchFirst order.summary fun o => o.szUid == k).bind
    fun summary => (s.managedObjectContext.summaries.object summary).bind
      ADZMessageSummary.szPlaintext

/-- The answer for a uid that is listed, but not cached. -/
theorem returned_of_listed (hc : s.dicCached.cached m.szUid = none)
    (hl : containsString (s.dicCached.uids order).szUids m.szUid = true) :
    (s.searchPlaintextOfMsg order (some m)).returned = s.storedPlaintext order m.szUid := by
  simp only [searchPlaintextOfMsg, hc, hl, if_true, uids_summaries,
    dicCached_managedObjectContext, storedPlaintext]
  cases s.managedObjectContext.summaries.fetchFirst order.summary fun o => o.szUid == m.szUid with
  | none => rfl
  | some i =>
    rw [Option.bind_some]
    cases ht : (s.managedObjectContext.summaries.object i).bind ADZMessageSummary.szPlaintext with
    | none => simp only [ht]
    | some t => simp only [ht]

/-- A recorded uid is listed. -/
theorem Indexed.containsString_of_recorded (h : s.Indexed)
    (hk : m.szUid ∈ uidTokens s.managedObjectContext.szUids) :
    containsString (s.dicCached.uids order).szUids m.szUid = true :=
  h.containsString_iff.2 ⟨m.szUid, hk, List.infix_refl _⟩

/-- Of the objects for a uid, the one listed first lacks its text. -/
theorem lacks_of_storedHtml {x : Option τ} (hx : (k, x) ∈ s.managedObjectContext.texts .html)
    (hf : s.storedHtml order k = none) : s.managedObjectContext.Lacks .html k := by
  obtain ⟨j, o', ho', hk', -⟩ := NSManagedObjectContext.mem_texts_html.1 hx
  unfold storedHtml at hf
  cases hfirst : s.managedObjectContext.htmls.fetchFirst order.html fun o => o.szUid == k with
  | none =>
    rw [Table.fetchFirst_eq_none] at hfirst
    exact absurd (hfirst j o' ho') (by simp [hk'])
  | some i =>
    obtain ⟨o, ho, hk⟩ := Table.fetchFirst_eq_some hfirst
    rw [hfirst, Option.bind_some, ho, Option.bind_some] at hf
    exact NSManagedObjectContext.mem_texts_html.2 ⟨i, o, ho, by simpa using hk, hf⟩

theorem texts_uids : (s.uids order).managedObjectContext.texts kind =
    s.managedObjectContext.texts kind := by
  cases kind <;> simp [NSManagedObjectContext.texts]

/-- An insertion adds an object without a text. -/
theorem hasText_insertSummary :
    (s.insertSummary m).managedObjectContext.HasText kind k ↔
      s.managedObjectContext.HasText kind k := by
  cases kind with
  | html => exact Iff.rfl
  | plaintext =>
    simp [NSManagedObjectContext.HasText, NSManagedObjectContext.texts, insertSummary, Table.insert]

theorem lacks_insertSummary : (s.insertSummary m).managedObjectContext.Lacks kind k ↔
    s.managedObjectContext.Lacks kind k ∨ (kind = .plaintext ∧ k = m.szUid) := by
  cases kind with
  | html => simp [NSManagedObjectContext.Lacks, NSManagedObjectContext.texts, insertSummary]
  | plaintext =>
    simp [NSManagedObjectContext.Lacks, NSManagedObjectContext.texts, insertSummary, Table.insert]

theorem hasText_insertHtml {k₁ : NSString} :
    (s.insertHtml k₁).managedObjectContext.HasText kind k ↔
      s.managedObjectContext.HasText kind k := by
  cases kind with
  | plaintext => exact Iff.rfl
  | html =>
    simp [NSManagedObjectContext.HasText, NSManagedObjectContext.texts, insertHtml, Table.insert]

theorem lacks_insertHtml {k₁ : NSString} :
    (s.insertHtml k₁).managedObjectContext.Lacks kind k ↔
      s.managedObjectContext.Lacks kind k ∨ (kind = .html ∧ k = k₁) := by
  cases kind with
  | plaintext => simp [NSManagedObjectContext.Lacks, NSManagedObjectContext.texts, insertHtml]
  | html =>
    simp [NSManagedObjectContext.Lacks, NSManagedObjectContext.texts, insertHtml, Table.insert]

/-- A search adds at most an object without a text, for a uid without a text, and what it starts is
the rendering of such an object. -/
structure Adds (s : ADZStoreMsgToCoreData τ) (r : Reply τ) : Prop where
  hasText : ∀ kind k, r.store.managedObjectContext.HasText kind k ↔
    s.managedObjectContext.HasText kind k
  lacks : ∀ kind k, r.store.managedObjectContext.Lacks kind k →
    s.managedObjectContext.Lacks kind k ∨ ¬ s.managedObjectContext.HasText kind k
  keeps : ∀ kind k, s.managedObjectContext.Lacks kind k →
    r.store.managedObjectContext.Lacks kind k
  started : ∀ op, r.started = some op →
    r.store.managedObjectContext.Lacks op.kind op.msg.szUid

theorem adds_of_texts {r : Reply τ}
    (h : ∀ kind, r.store.managedObjectContext.texts kind = s.managedObjectContext.texts kind)
    (hst : ∀ op, r.started = some op → s.managedObjectContext.Lacks op.kind op.msg.szUid) :
    s.Adds r := by
  have hlacks : ∀ kind k, r.store.managedObjectContext.Lacks kind k ↔
      s.managedObjectContext.Lacks kind k := by
    intro kind k
    rw [NSManagedObjectContext.Lacks, NSManagedObjectContext.Lacks, h]
  refine ⟨fun kind k => ?_, fun kind k hk => .inl ((hlacks _ _).1 hk),
    fun kind k => (hlacks _ _).2, fun op hop => (hlacks _ _).2 (hst op hop)⟩
  simp [NSManagedObjectContext.HasText, h]

theorem PlaintextSearch.adds {r : Reply τ} (hr : PlaintextSearch s order m r) (hi : s.Indexed) :
    s.Adds r := by
  have hu : ∀ kind, (s.dicCached.uids order).managedObjectContext.texts kind =
      s.managedObjectContext.texts kind := by
    intro kind
    rw [texts_uids, dicCached_managedObjectContext]
  cases hr with
  | cached => exact adds_of_texts (by simp) (fun _ hop => by cases hop)
  | dropped => exact adds_of_texts (by simp [removeCached]) (fun _ hop => by cases hop)
  | missing => exact adds_of_texts hu (fun _ hop => by cases hop)
  | stored => exact adds_of_texts hu (fun _ hop => by cases hop)
  | @retried i o hc hl ho hk hx =>
    refine adds_of_texts hu fun op hop => ?_
    obtain ⟨σ, -, rfl⟩ := Option.map_eq_some_iff.1 hop
    exact NSManagedObjectContext.mem_texts_plaintext.2 ⟨i, o, ho, hk, hx⟩
  | inserted hc hl =>
    refine ⟨fun kind k => ?_, fun kind k hlack => ?_, fun kind k hlack => ?_, fun op hop => ?_⟩
    · rw [hasText_insertSummary]
      simp only [NSManagedObjectContext.HasText, hu]
    · rcases lacks_insertSummary.1 hlack with hlack | ⟨rfl, rfl⟩
      · rw [NSManagedObjectContext.Lacks, hu] at hlack
        exact .inl hlack
      · right
        intro ht
        rw [hi.containsString_of_recorded (hi.context.recorded_of_hasText ht)] at hl
        cases hl
    · refine lacks_insertSummary.2 (.inl ?_)
      rwa [NSManagedObjectContext.Lacks, hu]
    · obtain ⟨σ, -, rfl⟩ := Option.map_eq_some_iff.1 hop
      exact lacks_insertSummary.2 (.inr ⟨rfl, rfl⟩)

theorem adds_searchHtmlOfMsg (s : ADZStoreMsgToCoreData τ) (order : FetchOrders) (msg : Msg τ) :
    s.Adds (s.searchHtmlOfMsg order (some msg)) := by
  by_cases h : (s.cached msg.szUid).bind ADZCached.szHtml = none ∧ s.storedHtml order msg.szUid = none
  · rw [searchHtmlOfMsg_of_none h.1 h.2]
    refine ⟨fun kind k => hasText_insertHtml, fun kind k hlack => ?_,
      fun kind k hlack => lacks_insertHtml.2 (.inl hlack), fun op hop => ?_⟩
    · rcases lacks_insertHtml.1 hlack with hlack | ⟨rfl, rfl⟩
      · exact .inl hlack
      · -- if the uid has a text, another object lacks it
        by_cases ht : s.managedObjectContext.HasText .html msg.szUid
        · obtain ⟨t, hx⟩ := ht
          exact .inl (lacks_of_storedHtml hx h.2)
        · exact .inr ht
    · obtain ⟨σ, -, rfl⟩ := Option.map_eq_some_iff.1 hop
      exact lacks_insertHtml.2 (.inr ⟨rfl, rfl⟩)
  · obtain ⟨t, store, hr, hctx⟩ := searchHtmlOfMsg_of_some h
    rw [hr]
    exact adds_of_texts (fun kind => by rw [hctx]) (fun _ hop => by cases hop)

end ADZStoreMsgToCoreData

end SecMail
