import SecMail.Store.Texts

/-!
# The cache vouches for divided uids

A search takes a text from the cache or, if the cache has no item, from the object that its fetch
lists first.  A uid is *divided* when one of its objects has a text and another has not: then the
text is available as long as the cache has it.

* `ADZStoreMsgToCoreData.Available` : every search for the uid answers;
* `ADZStoreMsgToCoreData.Vouched` is the invariant that makes texts available;
* `Vouched.searchPlaintextOfMsg`, `Vouched.searchHtmlOfMsg` and `RenderingOp.vouched_complete` : it
  is kept by steps that do not make the cache forget a divided uid.
-/

namespace SecMail

variable {τ : Type*}

/-! ### Available texts -/

/-- The search returns a text and starts nothing. -/
def Reply.Answers (r : Reply τ) : Prop := r.returned.isSome = true ∧ r.started = none

namespace ADZStoreMsgToCoreData

variable {s : ADZStoreMsgToCoreData τ} {order : FetchOrders} {kind : Kind} {k : NSString}
  {m : MCOIMAPMessage}

/-- Every search of the kind for `k` answers, in whatever order a fetch lists its results. -/
def Available (s : ADZStoreMsgToCoreData τ) : Kind → NSString → Prop
  | .plaintext, k => ∀ order (m : MCOIMAPMessage), m.szUid = k →
    (s.searchPlaintextOfMsg order (some m)).Answers
  | .html, k => ∀ order (msg : Msg τ), msg.szUid = k →
    (s.searchHtmlOfMsg order (some msg)).Answers

/-- A fetch may list an object without a text first. -/
theorem not_available_plaintext (hlack : s.managedObjectContext.Lacks .plaintext m.szUid)
    (hc : s.dicCached.cached m.szUid = none) : ¬ s.Available .plaintext m.szUid := by
  intro hav
  obtain ⟨i, o, ho, hk, hx⟩ := NSManagedObjectContext.mem_texts_plaintext.1 hlack
  obtain ⟨hret, -⟩ := hav ⟨.first i, .insertion, .insertion⟩ m rfl
  by_cases hl : containsString
      (s.dicCached.uids ⟨.first i, .insertion, .insertion⟩).szUids m.szUid = true
  · rw [returned_of_listed hc hl, storedPlaintext, Table.fetchFirst_first ho (by simp [hk]),
      Option.bind_some, ho, Option.bind_some, hx] at hret
    cases hret
  · simp [searchPlaintextOfMsg, hc, hl] at hret

/-- A cache item without a text is dropped. -/
theorem not_available_of_dropped {item : ADZCached τ}
    (hc : s.dicCached.cached m.szUid = some item) (hx : item.szPlaintext = none) :
    ¬ s.Available .plaintext m.szUid := by
  intro hav
  obtain ⟨hret, -⟩ := hav .insertion m rfl
  simp [searchPlaintextOfMsg, hc, hx] at hret

theorem not_available_html {msg : Msg τ} (hlack : s.managedObjectContext.Lacks .html msg.szUid)
    (hc : (s.cached msg.szUid).bind ADZCached.szHtml = none) : ¬ s.Available .html msg.szUid := by
  intro hav
  obtain ⟨i, o, ho, hk, hx⟩ := NSManagedObjectContext.mem_texts_html.1 hlack
  obtain ⟨hret, -⟩ := hav ⟨.insertion, .first i, .insertion⟩ msg rfl
  have hf : s.storedHtml ⟨.insertion, .first i, .insertion⟩ msg.szUid = none := by
    rw [storedHtml, Table.fetchFirst_first ho (by simp [hk]), Option.bind_some, ho,
      Option.bind_some, hx]
  rw [searchHtmlOfMsg_of_none hc hf] at hret
  cases hret

/-- **The invariant.**  A divided uid has its text in the cache, and no uid with a text has a cache
item without it. -/
structure Vouched (s : ADZStoreMsgToCoreData τ) : Prop where
  plaintext : ∀ k, s.managedObjectContext.Divided .plaintext k →
    s.overfull = false ∧ (s.cached k).isSome = true
  kept : ∀ k item, s.managedObjectContext.HasText .plaintext k → s.cached k = some item →
    item.szPlaintext.isSome = true
  html : ∀ k, s.managedObjectContext.Divided .html k →
    ((s.cached k).bind ADZCached.szHtml).isSome = true

/-- A uid with a text is available. -/
theorem Vouched.available (hv : s.Vouched) (hi : s.Indexed)
    (ht : s.managedObjectContext.HasText kind k) : s.Available kind k := by
  cases kind with
  | plaintext =>
    rintro order m rfl
    have hr := s.searchPlaintextOfMsg_cases order m
    generalize s.searchPlaintextOfMsg order (some m) = r at hr
    have hrec := hi.context.recorded_of_hasText ht
    cases hr with
    | cached => exact ⟨rfl, rfl⟩
    | stored => exact ⟨rfl, rfl⟩
    | dropped hc hx =>
      have hsome := hv.kept _ _ ht (cached_of_dicCached hc)
      rw [hx] at hsome
      cases hsome
    | missing hc hl hnone =>
      obtain ⟨t, ht⟩ := ht
      obtain ⟨i, o, ho, hk, -⟩ := NSManagedObjectContext.mem_texts_plaintext.1 ht
      exact absurd hk (hnone i o ho)
    | @retried i o hc hl ho hk hx =>
      -- the object lacks its text, so the cache would have it
      have hlack := NSManagedObjectContext.mem_texts_plaintext.2 ⟨i, o, ho, hk, hx⟩
      obtain ⟨hover, hsome⟩ := hv.plaintext _ ⟨ht, hlack⟩
      rw [cached_dicCached_of_not_overfull hover] at hc
      rw [hc] at hsome
      cases hsome
    | inserted hc hl =>
      rw [hi.containsString_of_recorded hrec] at hl
      cases hl
  | html =>
    rintro order msg rfl
    by_cases h : (s.cached msg.szUid).bind ADZCached.szHtml = none ∧
        s.storedHtml order msg.szUid = none
    · obtain ⟨t, hx⟩ := ht
      have hsome := hv.html _ ⟨⟨t, hx⟩, lacks_of_storedHtml hx h.2⟩
      rw [h.1] at hsome
      cases hsome
    · obtain ⟨t, store, hr, -⟩ := searchHtmlOfMsg_of_some h
      rw [hr]
      exact ⟨rfl, rfl⟩

/-! ### Searches keep the invariant -/

/-- What a search for `m` makes the cache forget: everything, if the getter drops all items or the
next call of it will; the HTML of `m`, with an item that has no plain text. -/
def Forgets (s : ADZStoreMsgToCoreData τ) (order : FetchOrders) (m : MCOIMAPMessage) :
    Kind → NSString → Prop
  | .plaintext, _ => s.dicCached.cached m.szUid = none ∧
    containsString (s.dicCached.uids order).szUids m.szUid = true ∧
    (s.storedPlaintext order m.szUid).isSome = true ∧ s.dicCached.hasRoom m.szUid = false
  | .html, k => s.overfull = true ∨
    (k = m.szUid ∧ ∃ item ∈ s.dicCached.cached m.szUid, item.szPlaintext = none)

instance (s : ADZStoreMsgToCoreData τ) (order : FetchOrders) (m : MCOIMAPMessage) :
    (kind : Kind) → (k : NSString) → Decidable (s.Forgets order m kind k)
  | .plaintext, _ => inferInstanceAs (Decidable (_ ∧ _ ∧ _ ∧ _))
  | .html, _ => inferInstanceAs (Decidable (_ ∨ (_ ∧ _)))

/-- The invariant is about the texts and the cache. -/
theorem Vouched.congr {s' : ADZStoreMsgToCoreData τ} (hv : s.Vouched)
    (htexts : ∀ kind, s'.managedObjectContext.texts kind = s.managedObjectContext.texts kind)
    (hd : s'._dicCached = s._dicCached) : s'.Vouched := by
  have hcached : ∀ k, s'.cached k = s.cached k := fun k => by rw [cached, cached, hd]
  have hover : s'.overfull = s.overfull := by rw [overfull, overfull, hd]
  have htext : ∀ kind k, s'.managedObjectContext.HasText kind k ↔
      s.managedObjectContext.HasText kind k := by
    simp [NSManagedObjectContext.HasText, htexts]
  have hdivided : ∀ kind k, s'.managedObjectContext.Divided kind k ↔
      s.managedObjectContext.Divided kind k := by
    simp [NSManagedObjectContext.Divided, NSManagedObjectContext.Lacks, htext, htexts]
  refine ⟨fun k h => ?_, fun k item h hc => ?_, fun k h => ?_⟩
  · rw [hover, hcached]
    exact hv.plaintext k ((hdivided _ _).1 h)
  · exact hv.kept k item ((htext _ _).1 h) ((hcached k).symm.trans hc)
  · rw [hcached]
    exact hv.html k ((hdivided _ _).1 h)

theorem Vouched.dicCached (hv : s.Vouched)
    (hC : ∀ k, s.managedObjectContext.Divided .html k → s.overfull = false) :
    s.dicCached.Vouched := by
  refine ⟨fun k h => ?_, fun k item h hc => ?_, fun k h => ?_⟩
  · rw [dicCached_managedObjectContext] at h
    obtain ⟨hover, hsome⟩ := hv.plaintext k h
    rw [cached_dicCached_of_not_overfull hover]
    exact ⟨overfull_dicCached, hsome⟩
  · rw [dicCached_managedObjectContext] at h
    exact hv.kept k item h (cached_of_dicCached hc)
  · rw [dicCached_managedObjectContext] at h
    rw [cached_dicCached_of_not_overfull (hC k h)]
    exact hv.html k h

/-- Only an item without a plain text is removed. -/
theorem Vouched.removeCached {item : ADZCached τ} (hv : s.Vouched) (hc : s.cached k = some item)
    (hx : item.szPlaintext = none) (hC : ¬ s.managedObjectContext.Divided .html k) :
    (s.removeCached k).Vouched := by
  have hkept : ∀ k', s.managedObjectContext.HasText .plaintext k' → k' ≠ k := by
    rintro k' h rfl
    have hsome := hv.kept k' item h hc
    rw [hx] at hsome
    cases hsome
  refine ⟨fun k' h => ?_, fun k' item' h hc' => ?_, fun k' h => ?_⟩
  · obtain ⟨hover, hsome⟩ := hv.plaintext k' h
    rw [cached_removeCached_of_ne (hkept k' h.1)]
    exact ⟨overfull_removeCached hover, hsome⟩
  · exact hv.kept k' item' h (SecMail.ADZStoreMsgToCoreData.cached_removeCached hc').2
  · rw [cached_removeCached_of_ne]
    · exact hv.html k' h
    · rintro rfl
      exact hC h

/-- Caching a plain text: the invariant need only hold for the other uids before. -/
theorem vouched_setCached {t : Option τ}
    (hp : ∀ k', s.managedObjectContext.Divided .plaintext k' →
      s.hasRoom k = true ∧ (k' ≠ k → (s.cached k').isSome = true))
    (hk : ∀ k' item, k' ≠ k → s.managedObjectContext.HasText .plaintext k' →
      s.cached k' = some item → item.szPlaintext.isSome = true)
    (ht : s.managedObjectContext.HasText .plaintext k → t.isSome = true)
    (hh : ∀ k', s.managedObjectContext.Divided .html k' →
      k' ≠ k ∧ ((s.cached k').bind ADZCached.szHtml).isSome = true) :
    (s.setCached k ⟨t, none⟩).Vouched := by
  refine ⟨fun k' h => ?_, fun k' item h hc => ?_, fun k' h => ?_⟩
  · obtain ⟨hroom, hsome⟩ := hp k' h
    obtain ⟨hover, hcached⟩ : (s.setCached k ⟨t, none⟩).overfull = false ∧ _ :=
      cached_setCached_of_hasRoom hroom
    refine ⟨hover, ?_⟩
    rw [hcached]
    split_ifs with hkk
    · rfl
    · exact hsome hkk
  · rw [cached_setCached_eq] at hc
    split_ifs at hc with hkk
    · subst hkk
      obtain ⟨d, -, rfl⟩ := Option.map_eq_some_iff.1 hc
      exact ht h
    · exact hk k' item hkk h hc
  · obtain ⟨hne, hsome⟩ := hh k' h
    rw [cached_setCached_eq, if_neg hne]
    exact hsome

theorem Vouched.searchPlaintextOfMsg (hv : s.Vouched) (hi : s.Indexed) (order : FetchOrders)
    (m : MCOIMAPMessage)
    (hC : ∀ kind k, s.managedObjectContext.Divided kind k → ¬ s.Forgets order m kind k) :
    (s.searchPlaintextOfMsg order (some m)).store.Vouched := by
  have hover : ∀ k, s.managedObjectContext.Divided .html k → s.overfull = false := by
    intro k h
    have hforgets := hC .html k h
    rw [Forgets, not_or, Bool.not_eq_true] at hforgets
    exact hforgets.1
  have hd := hv.dicCached hover
  have hu : (s.dicCached.uids order).Vouched := hd.congr (fun _ => texts_uids) uids_dicCached
  have hret : s.dicCached.cached m.szUid = none →
      containsString (s.dicCached.uids order).szUids m.szUid = true →
      (s.searchPlaintextOfMsg order (some m)).returned = s.storedPlaintext order m.szUid :=
    returned_of_listed
  have hr := s.searchPlaintextOfMsg_cases order m
  generalize s.searchPlaintextOfMsg order (some m) = r at hr hret
  cases hr with
  | cached => exact hd
  | missing => exact hu
  | retried => exact hu
  | dropped hc hx =>
    refine hd.removeCached hc hx fun h => ?_
    rw [dicCached_managedObjectContext] at h
    exact hC .html _ h (.inr ⟨rfl, _, hc, hx⟩)
  | @stored i o t hc hl ho hk hx =>
    have hstored : s.storedPlaintext order m.szUid = some t := (hret hc hl).symm
    have hctx : ∀ kind k, (s.dicCached.uids order).managedObjectContext.Divided kind k →
        s.managedObjectContext.Divided kind k := by
      intro kind k
      simp [NSManagedObjectContext.Divided, NSManagedObjectContext.HasText,
        NSManagedObjectContext.Lacks, texts_uids]
    refine vouched_setCached (fun k h => ⟨?_, fun _ => (hu.plaintext k h).2⟩)
      (fun k item _ => hu.kept k item) (fun _ => rfl) (fun k h => ⟨?_, hu.html k h⟩)
    · have hforgets := hC .plaintext k (hctx _ _ h)
      rw [Forgets, hc, hl, hstored] at hforgets
      simpa [hasRoom] using hforgets
    · -- the HTML of `m` is not cached, since `m` is not
      rintro rfl
      have hsome := hu.html _ h
      rw [uids_cached, hc] at hsome
      cases hsome
  | inserted hc hl =>
    have hnew : ¬ (s.dicCached.uids order).managedObjectContext.HasText .plaintext m.szUid := by
      rintro ⟨t, ht⟩
      rw [texts_uids, dicCached_managedObjectContext] at ht
      have hrec := hi.context.recorded_of_hasText ⟨t, ht⟩
      rw [hi.containsString_of_recorded hrec] at hl
      cases hl
    have hdivided : ∀ kind k, ((s.dicCached.uids order).insertSummary m).managedObjectContext.Divided
        kind k → (s.dicCached.uids order).managedObjectContext.Divided kind k := by
      rintro kind k ⟨ht, hlack⟩
      have ht := hasText_insertSummary.1 ht
      rcases lacks_insertSummary.1 hlack with hlack | ⟨rfl, rfl⟩
      · exact ⟨ht, hlack⟩
      · exact absurd ht hnew
    exact ⟨fun k h => hu.plaintext k (hdivided _ _ h),
      fun k item h => hu.kept k item (hasText_insertSummary.1 h),
      fun k h => hu.html k (hdivided _ _ h)⟩

/-- Caching HTML: the item must be there if its uid is divided, and the plain texts stay. -/
theorem vouched_setCachedHtml {t : Option τ}
    (hp : ∀ k', s.managedObjectContext.Divided .plaintext k' →
      s.overfull = false ∧ (s.cached k').isSome = true)
    (hk : ∀ k' item, s.managedObjectContext.HasText .plaintext k' → s.cached k' = some item →
      item.szPlaintext.isSome = true)
    (ht : s.managedObjectContext.Divided .html k → (s.cached k).isSome = true ∧ t.isSome = true)
    (hh : ∀ k', k' ≠ k → s.managedObjectContext.Divided .html k' →
      ((s.cached k').bind ADZCached.szHtml).isSome = true) :
    (s.setCachedHtml k t).Vouched := by
  refine ⟨fun k' h => ?_, fun k' item h hc => ?_, fun k' h => ?_⟩
  · rw [setCachedHtml_managedObjectContext] at h
    obtain ⟨hover, hsome⟩ := hp k' h
    refine ⟨overfull_setCachedHtml hover, ?_⟩
    rw [cached_setCachedHtml_eq]
    split_ifs with hkk
    · subst hkk
      rwa [Option.isSome_map]
    · exact hsome
  · rw [setCachedHtml_managedObjectContext] at h
    rcases cached_setCachedHtml hc with hc | ⟨old, hold, rfl, rfl⟩
    · exact hk k' item h hc
    · exact hk _ old h hold
  · rw [setCachedHtml_managedObjectContext] at h
    rw [cached_setCachedHtml_eq]
    split_ifs with hkk
    · subst hkk
      obtain ⟨hsome, htext⟩ := ht h
      obtain ⟨item, hitem⟩ := Option.isSome_iff_exists.1 hsome
      rw [hitem]
      exact htext
    · exact hh k' hkk h

theorem Vouched.setCachedHtml (hv : s.Vouched) (t : τ) : (s.setCachedHtml k (some t)).Vouched := by
  refine vouched_setCachedHtml hv.plaintext hv.kept (fun h => ⟨?_, rfl⟩) fun k' _ => hv.html k'
  exact Option.isSome_of_isSome_bind (hv.html k h)

theorem Vouched.searchHtmlOfMsg (hv : s.Vouched) (order : FetchOrders) (msg : Msg τ) :
    (s.searchHtmlOfMsg order (some msg)).store.Vouched := by
  by_cases h : (s.cached msg.szUid).bind ADZCached.szHtml = none ∧ s.storedHtml order msg.szUid = none
  · rw [searchHtmlOfMsg_of_none h.1 h.2]
    have hdivided : ∀ kind k, (s.insertHtml msg.szUid).managedObjectContext.Divided kind k →
        s.managedObjectContext.Divided kind k := by
      rintro kind k ⟨ht, hlack⟩
      have ht := hasText_insertHtml.1 ht
      rcases lacks_insertHtml.1 hlack with hlack | ⟨rfl, rfl⟩
      · exact ⟨ht, hlack⟩
      · -- the object listed first has no text either
        obtain ⟨t, hx⟩ := ht
        have hsome := hv.html _ ⟨⟨t, hx⟩, lacks_of_storedHtml hx h.2⟩
        rw [h.1] at hsome
        cases hsome
    exact ⟨fun k h => hv.plaintext k (hdivided _ _ h),
      fun k item h => hv.kept k item (hasText_insertHtml.1 h),
      fun k h => hv.html k (hdivided _ _ h)⟩
  · obtain ⟨t, store, hret, -⟩ := searchHtmlOfMsg_of_some h
    have hr := s.searchHtmlOfMsg_cases order msg
    generalize s.searchHtmlOfMsg order (some msg) = r at hr hret
    cases hr with
    | cached => exact hv
    | stored => exact hv.setCachedHtml _
    | inserted => cases hret

end ADZStoreMsgToCoreData

/-! ### Completions keep the invariant -/

namespace RenderingOp

variable {s s' : ADZStoreMsgToCoreData τ} {op : RenderingOp τ} {result : Option τ}

/-- What a completion makes the cache forget: a plain text is cached in a new item, without HTML,
which may be one too many; HTML is only cached in an item that is there. -/
def Forgets (s : ADZStoreMsgToCoreData τ) : RenderingOp τ → Kind → NSString → Prop
  | plainTextBody m _ _, .plaintext, _ => s.hasRoom m.szUid = false
  | plainTextBody m _ _, .html, k => k = m.szUid
  | html _ _ _, .plaintext, _ => False
  | html msg _ _, .html, k => k = msg.szUid ∧ s.cached k = none

instance (s : ADZStoreMsgToCoreData τ) :
    (op : RenderingOp τ) → (kind : Kind) → (k : NSString) → Decidable (op.Forgets s kind k)
  | plainTextBody m _ _, .plaintext, _ => inferInstanceAs (Decidable (s.hasRoom m.szUid = false))
  | plainTextBody m _ _, .html, k => inferInstanceAs (Decidable (k = m.szUid))
  | html _ _ _, .plaintext, _ => isFalse id
  | html msg _ _, .html, k => inferInstanceAs (Decidable (k = msg.szUid ∧ s.cached k = none))

/-- The condition on a completion. -/
def KeepsTexts (s : ADZStoreMsgToCoreData τ) (result : Option τ) (op : RenderingOp τ) : Prop :=
  (result = none → ¬ s.managedObjectContext.HasText op.kind op.msg.szUid) ∧
    ∀ kind k, (op.fill s result).Divided kind k → ¬ op.Forgets s kind k

instance [DecidableEq τ] (s : ADZStoreMsgToCoreData τ) (result : Option τ) (op : RenderingOp τ) :
    Decidable (op.KeepsTexts s result) :=
  inferInstanceAs (Decidable ((result = none →
    ¬ s.managedObjectContext.HasText op.kind op.msg.szUid) ∧
    ∀ kind k, (op.fill s result).Divided kind k → ¬ op.Forgets s kind k))

/-- A uid whose rendering failed has a text after it only if it had one before. -/
theorem isSome_of_hasText (hl : op.Linked s.managedObjectContext)
    (hC : result = none → ¬ s.managedObjectContext.HasText op.kind op.msg.szUid)
    (ht : (op.fill s result).HasText op.kind op.msg.szUid) : result.isSome = true := by
  obtain ⟨t, ht⟩ := ht
  rw [Option.isSome_iff_ne_none]
  rintro rfl
  rcases mem_texts_fill hl ht with ⟨-, -, hnone⟩ | ht
  · cases hnone
  · exact hC rfl ⟨t, ht⟩

theorem hasText_of_fill {kind : Kind} {k : NSString} (hl : op.Linked s.managedObjectContext)
    (hne : ¬ (kind = op.kind ∧ k = op.msg.szUid)) (ht : (op.fill s result).HasText kind k) :
    s.managedObjectContext.HasText kind k := by
  obtain ⟨t, ht⟩ := ht
  rcases mem_texts_fill hl ht with ⟨hkind, hk, -⟩ | ht
  · exact absurd ⟨hkind, hk⟩ hne
  · exact ⟨t, ht⟩

theorem divided_of_fill {kind : Kind} {k : NSString} (hl : op.Linked s.managedObjectContext)
    (hne : ¬ (kind = op.kind ∧ k = op.msg.szUid)) (h : (op.fill s result).Divided kind k) :
    s.managedObjectContext.Divided kind k := by
  refine ⟨hasText_of_fill hl hne h.1, ?_⟩
  rcases mem_texts_fill hl h.2 with ⟨hkind, hk, -⟩ | hlack
  · exact absurd ⟨hkind, hk⟩ hne
  · exact hlack

theorem vouched_complete (hv : s.Vouched) (hl : op.Linked s.managedObjectContext)
    (hC : op.KeepsTexts s result) (hc : op.complete s result = some s') : s'.Vouched := by
  have hself : (op.fill s result).save.HasText op.kind op.msg.szUid → result.isSome = true :=
    fun h => isSome_of_hasText hl hC.1 (NSManagedObjectContext.hasText_save.1 h)
  have htext : ∀ kind k, ¬ (kind = op.kind ∧ k = op.msg.szUid) →
      (op.fill s result).save.HasText kind k → s.managedObjectContext.HasText kind k :=
    fun _ _ hne h => hasText_of_fill hl hne (NSManagedObjectContext.hasText_save.1 h)
  have hdivided : ∀ kind k, ¬ (kind = op.kind ∧ k = op.msg.szUid) →
      (op.fill s result).save.Divided kind k → s.managedObjectContext.Divided kind k :=
    fun _ _ hne h => divided_of_fill hl hne (NSManagedObjectContext.divided_save.1 h)
  have hforgets : ∀ kind k, (op.fill s result).save.Divided kind k → ¬ op.Forgets s kind k :=
    fun kind k h => hC.2 kind k (NSManagedObjectContext.divided_save.1 h)
  cases op with
  | plainTextBody m σ i =>
    obtain ⟨o, ho, hk⟩ := hl
    cases hc
    rw [ADZStoreMsgToCoreData.plaintextCompleted_eq ho, hk]
    refine ADZStoreMsgToCoreData.vouched_setCached (fun k h => ⟨?_, fun hne => ?_⟩)
      (fun k item hne h => ?_) hself (fun k h => ⟨hforgets .html k h, ?_⟩)
    · exact Bool.not_eq_false _ ▸ hforgets .plaintext k h
    · exact (hv.plaintext k (hdivided _ _ (fun heq => hne heq.2) h)).2
    · exact hv.kept k item (htext _ _ (fun heq => hne heq.2) h)
    · exact hv.html k (hdivided .html k (fun heq => by cases heq.1) h)
  | html msg σ i =>
    obtain ⟨o, ho, hk⟩ := hl
    cases msg with
    | summary d => cases hc
    | imap m =>
      cases hc
      rw [ADZStoreMsgToCoreData.htmlCompleted_eq ho, hk]
      refine ADZStoreMsgToCoreData.vouched_setCachedHtml
        (fun k h => hv.plaintext k (hdivided _ _ (fun heq => by cases heq.1) h))
        (fun k item h => hv.kept k item (htext _ _ (fun heq => by cases heq.1) h))
        (fun h => ⟨?_, hself h.1⟩)
        (fun k hne h => hv.html k (hdivided _ _ (fun heq => hne heq.2) h))
      exact Option.isSome_iff_ne_none.2 fun hnone => hforgets .html _ h ⟨rfl, hnone⟩

end RenderingOp

end SecMail
