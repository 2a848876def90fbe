import SecMail.Store.Step

/-!
# One record per message

A record is inserted when a text is asked for, but what keeps a second search from inserting
another one is only written when the rendering completes: the uid index and the cache for a
`SUMMARY` object, the text itself for an `HTML` object.

* `records_unique_iff` : the runs with at most one record per message are those in which no search
  falls into this window, and no search comes back to an `HTML` object without a text;
* `not_records_unique` : a table that redraws a row while its preview is being rendered is enough
  for a second record.
-/

namespace SecMail

variable {τ : Type*}

/-! ### Records and their keys -/

namespace NSManagedObjectContext

/-- At most one `SUMMARY` object and at most one `HTML` object for each `szUid`. -/
structure OneRecord (c : NSManagedObjectContext τ) : Prop where
  summaries : (c.summaries.keys ADZMessageSummary.szUid).Nodup
  htmls : (c.htmls.keys ADZHtml.szUid).Nodup

instance (c : NSManagedObjectContext τ) : Decidable c.OneRecord :=
  decidable_of_iff ((c.summaries.keys ADZMessageSummary.szUid).Nodup ∧
    (c.htmls.keys ADZHtml.szUid).Nodup) ⟨fun h => ⟨h.1, h.2⟩, fun h => ⟨h.1, h.2⟩⟩

/-- The committed rows are under the keys of their objects. -/
structure Keyed (c : NSManagedObjectContext τ) : Prop where
  summaries : SUMMARY.Keyed ADZMessageSummary.szUid c.summaries
  htmls : HTML.Keyed ADZHtml.szUid c.htmls

/-- The objects of `c'` have the keys of the objects of `c`. -/
structure SameKeys (c c' : NSManagedObjectContext τ) : Prop where
  summaries : c'.summaries.keys ADZMessageSummary.szUid = c.summaries.keys ADZMessageSummary.szUid
  htmls : c'.htmls.keys ADZHtml.szUid = c.htmls.keys ADZHtml.szUid

variable {c c' : NSManagedObjectContext τ}

theorem oneRecord_empty : (empty : NSManagedObjectContext τ).OneRecord :=
  ⟨List.nodup_nil, List.nodup_nil⟩

theorem keyed_empty : (empty : NSManagedObjectContext τ).Keyed := by
  constructor <;> simp [empty, Entity.Keyed]

theorem SameKeys.oneRecord (h : c.SameKeys c') (hc : c.OneRecord) : c'.OneRecord :=
  ⟨h.summaries ▸ hc.summaries, h.htmls ▸ hc.htmls⟩

theorem sameKeys_save : c.SameKeys c.save := by
  unfold save
  split_ifs
  · exact ⟨Entity.keys_commit, Entity.keys_commit⟩
  · exact ⟨rfl, rfl⟩

theorem Keyed.save (h : c.Keyed) : c.save.Keyed := by
  unfold NSManagedObjectContext.save
  split_ifs
  · exact ⟨Entity.keyed_commit, Entity.keyed_commit⟩
  · exact h

theorem keyed_restart : c.restart.Keyed := ⟨Entity.keyed_reload, Entity.keyed_reload⟩

/-- A restart loses records, it does not double them. -/
theorem Keyed.oneRecord_restart (h : c.Keyed) (hc : c.OneRecord) : c.restart.OneRecord :=
  ⟨hc.summaries.sublist h.summaries.keys_reload, hc.htmls.sublist h.htmls.keys_reload⟩

end NSManagedObjectContext

/-! ### Completions -/

namespace ADZStoreMsgToCoreData

variable {s : ADZStoreMsgToCoreData τ} {order : FetchOrders} {k : NSString}

theorem keyed_fillPlaintext (h : s.managedObjectContext.Keyed) (i : ℕ) (t : Option τ) :
    (s.fillPlaintext i k t).Keyed := by
  refine ⟨?_, h.htmls⟩
  rw [fillPlaintext_summaries]
  exact h.summaries.update fun _ => rfl

theorem keyed_fillHtml (h : s.managedObjectContext.Keyed) (i : ℕ) (t : Option τ) :
    (s.fillHtml i t).Keyed := by
  refine ⟨h.summaries, ?_⟩
  rw [fillHtml_htmls]
  exact h.htmls.update fun _ => rfl

/-- A completion fills an object that is there. -/
theorem sameKeys_plaintextCompleted (i : ℕ) (t : Option τ) :
    s.managedObjectContext.SameKeys (s.plaintextCompleted i t).managedObjectContext := by
  cases ho : s.managedObjectContext.summaries.object i with
  | none => simpa [plaintextCompleted, ho] using ⟨rfl, rfl⟩
  | some o =>
    have hfill : s.managedObjectContext.SameKeys (s.fillPlaintext i o.szUid t) := by
      refine ⟨?_, rfl⟩
      rw [fillPlaintext_summaries]
      exact Table.keys_update fun _ => rfl
    have hsave := NSManagedObjectContext.sameKeys_save (c := s.fillPlaintext i o.szUid t)
    rw [plaintextCompleted_eq ho]
    exact ⟨hsave.summaries.trans hfill.summaries, hsave.htmls.trans hfill.htmls⟩

theorem sameKeys_htmlCompleted (i : ℕ) (t : Option τ) :
    s.managedObjectContext.SameKeys (s.htmlCompleted i t).managedObjectContext := by
  cases ho : s.managedObjectContext.htmls.object i with
  | none => simpa [htmlCompleted, ho] using ⟨rfl, rfl⟩
  | some o =>
    have hfill : s.managedObjectContext.SameKeys (s.fillHtml i t) := by
      refine ⟨rfl, ?_⟩
      rw [fillHtml_htmls]
      exact Table.keys_update fun _ => rfl
    have hsave := NSManagedObjectContext.sameKeys_save (c := s.fillHtml i t)
    rw [htmlCompleted_eq ho, setCachedHtml_managedObjectContext]
    exact ⟨hsave.summaries.trans hfill.summaries, hsave.htmls.trans hfill.htmls⟩

theorem keyed_plaintextCompleted (h : s.managedObjectContext.Keyed) (i : ℕ) (t : Option τ) :
    (s.plaintextCompleted i t).managedObjectContext.Keyed := by
  cases ho : s.managedObjectContext.summaries.object i with
  | none => simpa [plaintextCompleted, ho] using h
  | some o =>
    rw [plaintextCompleted_eq ho]
    exact (keyed_fillPlaintext h i t).save

theorem keyed_htmlCompleted (h : s.managedObjectContext.Keyed) (i : ℕ) (t : Option τ) :
    (s.htmlCompleted i t).managedObjectContext.Keyed := by
  cases ho : s.managedObjectContext.htmls.object i with
  | none => simpa [htmlCompleted, ho] using h
  | some o =>
    rw [htmlCompleted_eq ho, setCachedHtml_managedObjectContext]
    exact (keyed_fillHtml h i t).save

/-! ### Searches -/

variable {r : Reply τ}

/-- The record of `m` is found by `searchPlaintextOfMsg`, if it exists. -/
def FindsSummary (s : ADZStoreMsgToCoreData τ) (order : FetchOrders) (m : MCOIMAPMessage) : Prop :=
  m.szUid ∈ s.managedObjectContext.summaries.keys ADZMessageSummary.szUid →
    (s.dicCached.cached m.szUid).isSome = true ∨
      containsString (s.dicCached.uids order).szUids m.szUid = true

instance (s : ADZStoreMsgToCoreData τ) (order : FetchOrders) (m : MCOIMAPMessage) :
    Decidable (s.FindsSummary order m) :=
  inferInstanceAs (Decidable (_ → _ ∨ _))

/-- The record of a row is found, with a text, by `searchHtmlOfMsg`, if it exists. -/
def FindsHtml (s : ADZStoreMsgToCoreData τ) (order : FetchOrders) (msg : Msg τ) : Prop :=
  msg.szUid ∈ s.managedObjectContext.htmls.keys ADZHtml.szUid →
    ((s.cached msg.szUid).bind ADZCached.szHtml).isSome = true ∨
      (s.storedHtml order msg.szUid).isSome = true

instance (s : ADZStoreMsgToCoreData τ) (order : FetchOrders) (msg : Msg τ) :
    Decidable (s.FindsHtml order msg) :=
  inferInstanceAs (Decidable (_ → _ ∨ _))

/-- A search doubles a record exactly if it does not find it. -/
theorem PlaintextSearch.oneRecord_iff {m : MCOIMAPMessage} (hr : PlaintextSearch s order m r)
    (hc : s.managedObjectContext.OneRecord) :
    s.FindsSummary order m ↔ r.store.managedObjectContext.OneRecord := by
  -- the other outcomes find the record, and keep the objects
  have hfound : ((s.dicCached.cached m.szUid).isSome = true ∨
      containsString (s.dicCached.uids order).szUids m.szUid = true) →
      r.store.managedObjectContext.summaries = s.managedObjectContext.summaries →
      r.store.managedObjectContext.htmls = s.managedObjectContext.htmls →
      (s.FindsSummary order m ↔ r.store.managedObjectContext.OneRecord) := by
    intro hf hs hh
    exact ⟨fun _ => ⟨hs ▸ hc.summaries, hh ▸ hc.htmls⟩, fun _ _ => hf⟩
  cases hr with
  | cached h => exact hfound (.inl (by simp [h])) (by simp) (by simp)
  | dropped h =>
    exact hfound (.inl (by simp [h])) (by simp [removeCached]) (by simp [removeCached])
  | missing h hl => exact hfound (.inr hl) (by simp) (by simp)
  | retried h hl => exact hfound (.inr hl) (by simp) (by simp)
  | stored h hl => exact hfound (.inr hl) (by simp [setCached]) (by simp [setCached])
  | inserted h hl =>
    have hfinds : s.FindsSummary order m ↔
        m.szUid ∉ s.managedObjectContext.summaries.keys ADZMessageSummary.szUid := by
      simp [FindsSummary, h, hl]
    rw [hfinds]
    constructor
    · intro hnew
      refine ⟨?_, by simpa [insertSummary] using hc.htmls⟩
      rw [insertSummary, Table.nodup_keys_insert]
      simpa using ⟨hc.summaries, hnew⟩
    · intro hone
      have hkeys := hone.summaries
      rw [insertSummary, Table.nodup_keys_insert] at hkeys
      simpa using hkeys.2

theorem oneRecord_searchHtmlOfMsg_iff (s : ADZStoreMsgToCoreData τ) (order : FetchOrders)
    (msg : Msg τ) (hc : s.managedObjectContext.OneRecord) :
    s.FindsHtml order msg ↔
      (s.searchHtmlOfMsg order (some msg)).store.managedObjectContext.OneRecord := by
  by_cases h : (s.cached msg.szUid).bind ADZCached.szHtml = none ∧ s.storedHtml order msg.szUid = none
  · have hfinds : s.FindsHtml order msg ↔
        msg.szUid ∉ s.managedObjectContext.htmls.keys ADZHtml.szUid := by
      simp [FindsHtml, h.1, h.2]
    rw [hfinds, searchHtmlOfMsg_of_none h.1 h.2]
    constructor
    · intro hnew
      exact ⟨hc.summaries, Table.nodup_keys_insert.2 ⟨hc.htmls, hnew⟩⟩
    · intro hone
      exact (Table.nodup_keys_insert.1 hone.htmls).2
  · obtain ⟨t, store, hr, hctx⟩ := searchHtmlOfMsg_of_some h
    rw [hr]
    simp only [hctx]
    refine ⟨fun _ => hc, fun _ _ => ?_⟩
    rw [not_and_or, ← Ne, ← Ne, ← Option.isSome_iff_ne_none, ← Option.isSome_iff_ne_none] at h
    exact h

theorem PlaintextSearch.keyed {m : MCOIMAPMessage} (hr : PlaintextSearch s order m r)
    (h : s.managedObjectContext.Keyed) : r.store.managedObjectContext.Keyed := by
  have hsame : r.store.managedObjectContext.summaries = s.managedObjectContext.summaries →
      r.store.managedObjectContext.htmls = s.managedObjectContext.htmls →
      r.store.managedObjectContext.Keyed := by
    intro hs hh
    exact ⟨hs ▸ h.summaries, hh ▸ h.htmls⟩
  cases hr with
  | cached => exact hsame (by simp) (by simp)
  | dropped => exact hsame (by simp [removeCached]) (by simp [removeCached])
  | missing => exact hsame (by simp) (by simp)
  | retried => exact hsame (by simp) (by simp)
  | stored => exact hsame (by simp [setCached]) (by simp [setCached])
  | inserted =>
    refine ⟨?_, by simpa [insertSummary] using h.htmls⟩
    rw [insertSummary, uids_summaries, dicCached_managedObjectContext]
    exact h.summaries.insert

theorem HtmlSearch.keyed {msg : Msg τ} (hr : HtmlSearch s msg r)
    (h : s.managedObjectContext.Keyed) : r.store.managedObjectContext.Keyed := by
  cases hr with
  | cached => exact h
  | stored => simpa using h
  | inserted => exact ⟨h.summaries, h.htmls.insert⟩

end ADZStoreMsgToCoreData

/-! ### Runs -/

namespace Process

variable {p p' : Process τ} {a : Action τ} {o : Observation τ}

/-- The condition on a step: a search finds the record of its message, if there is one. -/
def FindsRecord (p : Process τ) : Action τ → Prop
  | .searchPlaintextOfMsg order m => ∀ m' ∈ m, p.store.FindsSummary order m'
  | .searchHtmlOfMsg order msg => ∀ msg' ∈ msg, p.store.FindsHtml order msg'
  | _ => True

instance (p : Process τ) : (a : Action τ) → Decidable (p.FindsRecord a)
  | .searchPlaintextOfMsg order m =>
    inferInstanceAs (Decidable (∀ m' ∈ m, p.store.FindsSummary order m'))
  | .searchHtmlOfMsg order msg =>
    inferInstanceAs (Decidable (∀ msg' ∈ msg, p.store.FindsHtml order msg'))
  | .complete .. => isTrue trivial
  | .dicCached => isTrue trivial
  | .setImapSession _ => isTrue trivial
  | .setDelegate _ => isTrue trivial
  | .restart => isTrue trivial

theorem keyed_step (h : p.store.managedObjectContext.Keyed) (hs : StoreStep p a p' o) :
    p'.store.managedObjectContext.Keyed := by
  cases hs with
  | plaintextOfNil => exact h
  | htmlOfNil => exact h
  | searchPlaintextOfMsg hr => exact hr.keyed h
  | searchHtmlOfMsg hr => exact hr.keyed h
  | plaintextCompleted hk t => exact ADZStoreMsgToCoreData.keyed_plaintextCompleted h _ t
  | htmlCompleted hk t => exact ADZStoreMsgToCoreData.keyed_htmlCompleted h _ t
  | dicCached => simpa using h
  | setImapSession σ => exact h
  | setDelegate d => exact h
  | restart => exact NSManagedObjectContext.keyed_restart

/-- A step keeps the records single exactly if it meets the condition. -/
theorem oneRecord_step_iff (hp : p.store.managedObjectContext.OneRecord)
    (hk : p.store.managedObjectContext.Keyed) (hs : (storeSystem τ).next p a = some (p', o)) :
    p.FindsRecord a ↔ p'.store.managedObjectContext.OneRecord := by
  cases a with
  | searchPlaintextOfMsg order m =>
    cases hs
    cases m with
    | none => simpa [FindsRecord, reply, ADZStoreMsgToCoreData.searchPlaintextOfMsg] using hp
    | some m =>
      simpa [FindsRecord, reply] using
        (p.store.searchPlaintextOfMsg_cases order m).oneRecord_iff hp
  | searchHtmlOfMsg order msg =>
    cases hs
    cases msg with
    | none => simpa [FindsRecord, reply, ADZStoreMsgToCoreData.searchHtmlOfMsg] using hp
    | some msg =>
      simpa [FindsRecord, reply] using p.store.oneRecord_searchHtmlOfMsg_iff order msg hp
  | complete k t =>
    refine ⟨fun _ => ?_, fun _ => trivial⟩
    cases storeStep_of_next hs with
    | plaintextCompleted =>
      exact (ADZStoreMsgToCoreData.sameKeys_plaintextCompleted _ t).oneRecord hp
    | htmlCompleted => exact (ADZStoreMsgToCoreData.sameKeys_htmlCompleted _ t).oneRecord hp
  | dicCached =>
    cases hs
    simpa [FindsRecord] using hp
  | setImapSession σ =>
    cases hs
    exact ⟨fun _ => hp, fun _ => trivial⟩
  | setDelegate d =>
    cases hs
    exact ⟨fun _ => hp, fun _ => trivial⟩
  | restart =>
    cases hs
    exact ⟨fun _ => hk.oneRecord_restart hp, fun _ => trivial⟩

end Process

/-- **One record per message.**  A run from the empty database has at most one `SUMMARY` object and
at most one `HTML` object for each `szUid` in every state exactly if every search of the run finds
the record of its message, when there is one. -/
theorem records_unique_iff {p : Process τ} {h : List (Event τ)} {σ₀ : Option MCOIMAPSession}
    (hr : (storeSystem τ).Run (.init .empty σ₀) h p) :
    (storeSystem τ).Along (fun _ p => p.store.managedObjectContext.OneRecord) (.init .empty σ₀) h ↔
      (storeSystem τ).RunWhere Process.FindsRecord (.init .empty σ₀) h p := by
  refine hr.along_iff (I := fun _ p => p.store.managedObjectContext.Keyed)
    NSManagedObjectContext.keyed_empty NSManagedObjectContext.oneRecord_empty ?_
  intro h p a o p' hk hp _ hs
  exact ⟨fun _ => Process.keyed_step hk (storeStep_of_next hs), Process.oneRecord_step_iff hp hk hs⟩

theorem records_unique_text_html :
    ∃ h p, (storeSystem String).Run (.init .empty (some (account "first"))) h p ∧
      h.map Prod.fst = [.searchPlaintextOfMsg .insertion (some (mail 5)),
        .complete 0 (some "hello"), .searchPlaintextOfMsg .insertion (some (mail 5)),
        .searchHtmlOfMsg .insertion (some (.imap (mail 5))), .complete 0 (some "<p>hello</p>"),
        .searchHtmlOfMsg .insertion (some (.imap (mail 5)))] ∧
      (p.store.managedObjectContext.summaries.rows.length = 1 ∧
        p.store.managedObjectContext.htmls.rows.length = 1) ∧
      (storeSystem String).Along (fun _ p => p.store.managedObjectContext.OneRecord)
        (.init .empty (some (account "first"))) h :=
  (storeSystem String).exists_run_of_actions Process.FindsRecord _ _ (by decide +kernel)
    fun _ _ hr => (records_unique_iff hr.run).2 hr

/-- Two searches before the rendering completes insert two records. -/
theorem not_records_unique :
    ¬ ∀ (σ₀ : Option MCOIMAPSession) (h : List (Event String)) (p : Process String),
      (storeSystem String).Run (.init .empty σ₀) h p →
      p.store.managedObjectContext.OneRecord := by
  intro hall
  obtain ⟨h, p, hr, htwo⟩ := (storeSystem String).exists_run_of_exec (fun _ _ => True)
    (.init .empty (some (account "first")))
    [.searchPlaintextOfMsg .insertion (some (mail 5)),
      .searchPlaintextOfMsg .insertion (some (mail 5))]
    (fun _ p => ¬ p.store.managedObjectContext.OneRecord) (by decide +kernel)
  exact htwo (hall _ h p hr)

end SecMail
