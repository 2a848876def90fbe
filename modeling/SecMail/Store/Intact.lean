import SecMail.Store.Attachment
import SecMail.Store.Index
import SecMail.Store.Texts

/-!
# Operations that fail

The completion blocks of the store make the same assignments for a failed operation as for one that
succeeded: the text becomes `nil`, the uid is appended to the index, and the item of the cache is
replaced.

* `Process.Own` : an operation in flight that renders HTML has an object of its own, which has no
  text yet;
* `failures_intact_iff` : the failures of a run leave the contents of the store as they were
  exactly if all of them are failures of HTML renderings, at a time when no HTML is cached for the
  message;
* `not_failures_intact` : the failure of a plain text goes into the uid index.
-/

namespace SecMail

variable {τ β : Type*}

/-! ### Contents -/

/-- The texts of the managed objects, the uid index, and the cache by keys. -/
@[ext]
structure Contents (τ : Type*) where
  szPlaintexts : List (Option τ)
  szHtmls : List (Option τ)
  szUids : List (Option NSString)
  dicCached : NSString → Option (ADZCached τ)

namespace NSManagedObjectContext

variable {c : NSManagedObjectContext τ}

@[simp] theorem summaries_objects_save : c.save.summaries.objects = c.summaries.objects := by
  unfold save; split_ifs <;> simp

@[simp] theorem htmls_objects_save : c.save.htmls.objects = c.htmls.objects := by
  unfold save; split_ifs <;> simp

@[simp] theorem uids_objects_save : c.save.uids.objects = c.uids.objects := by
  unfold save; split_ifs <;> simp

end NSManagedObjectContext

/-- The string after a completion is never the string before it. -/
theorem appendUid_ne (szUids : Option NSString) (szUid : NSString) :
    some (appendUid szUids szUid) ≠ szUids := by
  intro h
  have hlen := congrArg (fun x => (x.getD []).length) h
  cases szUids with
  | none => simp [appendUid] at h
  | some x => simp [appendUid] at hlen

namespace ADZStoreMsgToCoreData

variable {s : ADZStoreMsgToCoreData τ} {i j : ℕ}

/-- What the store holds. -/
def contents (s : ADZStoreMsgToCoreData τ) : Contents τ where
  szPlaintexts := s.managedObjectContext.summaries.objects.map ADZMessageSummary.szPlaintext
  szHtmls := s.managedObjectContext.htmls.objects.map ADZHtml.szHtml
  szUids := s.managedObjectContext.uids.objects.map ADZAllUids.szUids
  dicCached := s.cached

/-- A plain text that fails, or does not, goes into the index. -/
theorem contents_plaintextCompleted_ne {o : ADZMessageSummary τ} {t : Option τ}
    (ho : s.managedObjectContext.summaries.object i = some o) (hi : s.Indexed)
    (hj : s._uids = some j) : (s.plaintextCompleted i t).contents ≠ s.contents := by
  obtain ⟨u, hu⟩ := Option.ne_none_iff_exists'.1
    fun hnone => Nat.not_le.2 (hi.uids j hj) (Table.object_eq_none.1 hnone)
  intro h
  have huids := congrArg Contents.szUids h
  rw [plaintextCompleted_eq ho] at huids
  simp only [contents, setCached, NSManagedObjectContext.uids_objects_save, fillPlaintext, hj] at huids
  rw [Table.map_objects_update_eq_iff hu] at huids
  exact appendUid_ne _ _ huids

/-- Clearing the HTML of a cached item loses nothing exactly if there is none. -/
theorem cached_setCachedHtml_none {k : NSString} : (s.setCachedHtml k none).cached = s.cached ↔
    (s.cached k).bind ADZCached.szHtml = none := by
  constructor
  · intro h
    have hk := congrFun h k
    rw [cached_setCachedHtml_eq, if_pos rfl] at hk
    rw [← hk]
    cases s.cached k <;> rfl
  · intro h
    funext k'
    rw [cached_setCachedHtml_eq]
    split_ifs with hk
    · subst hk
      cases hc : s.cached k' with
      | none => rfl
      | some item =>
        rw [hc, Option.bind_some] at h
        rw [Option.map_some, ← h]
    · rfl

/-- HTML that fails leaves the contents as they were exactly if there is no HTML to lose. -/
theorem contents_htmlCompleted_iff {o : ADZHtml τ}
    (ho : s.managedObjectContext.htmls.object i = some o) (hnone : o.szHtml = none) :
    (s.htmlCompleted i none).contents = s.contents ↔
      (s.cached o.szUid).bind ADZCached.szHtml = none := by
  have hhtmls : (s.htmlCompleted i none).contents.szHtmls = s.contents.szHtmls := by
    simp only [htmlCompleted_eq ho, contents, setCachedHtml_managedObjectContext,
      NSManagedObjectContext.htmls_objects_save, fillHtml_htmls]
    rw [Table.map_objects_update_eq_iff ho, hnone]
  have hcached : (s.htmlCompleted i none).cached = s.cached ↔
      (s.cached o.szUid).bind ADZCached.szHtml = none := by
    rw [htmlCompleted_eq ho]
    exact cached_setCachedHtml_none
  constructor
  · exact fun h => hcached.1 (congrArg Contents.dicCached h)
  · intro h
    refine Contents.ext ?_ hhtmls ?_ (hcached.2 h)
    · simp only [contents, htmlCompleted_eq ho, setCachedHtml_managedObjectContext,
        NSManagedObjectContext.summaries_objects_save, fillHtml_summaries]
    · simp only [contents, htmlCompleted_eq ho, setCachedHtml_managedObjectContext,
        NSManagedObjectContext.uids_objects_save, fillHtml_uids]

end ADZStoreMsgToCoreData

/-! ### The objects that are waited for -/

/-- The `HTML` object that an operation is going to fill. -/
def RenderingOp.htmlObject : RenderingOp τ → Option ℕ
  | plainTextBody .. => none
  | html _ _ html_ => some html_

theorem ADZStoreMsgToCoreData.PlaintextSearch.htmlObject {s : ADZStoreMsgToCoreData τ}
    {order : FetchOrders} {m : MCOIMAPMessage} {r : Reply τ} (hr : PlaintextSearch s order m r) :
    r.started.toList.filterMap RenderingOp.htmlObject = [] := by
  cases hr with
  | cached => rfl
  | dropped => rfl
  | missing => rfl
  | stored => rfl
  | retried => cases hσ : s.imapSession <;> simp [setPlaintext, hσ, RenderingOp.htmlObject]
  | inserted => cases hσ : s.imapSession <;> simp [setPlaintext, hσ, RenderingOp.htmlObject]

namespace Process

/-- The `HTML` objects that operations in flight are going to fill. -/
def htmlObjects (p : Process τ) : List ℕ := p.inFlight.filterMap RenderingOp.htmlObject

/-- Each of them is filled by one operation, and has no text yet. -/
structure Own (p : Process τ) : Prop where
  nodup : p.htmlObjects.Nodup
  blank : ∀ i ∈ p.htmlObjects, ∃ o, p.store.managedObjectContext.htmls.object i = some o ∧
    o.szHtml = none

variable {p p' : Process τ} {a : Action τ} {o : Observation τ} {op : RenderingOp τ} {k : ℕ}

theorem own_init (c : NSManagedObjectContext τ) (σ : Option MCOIMAPSession) : (init c σ).Own :=
  ⟨List.nodup_nil, by simp [htmlObjects, init]⟩

/-- The operation that completes, and the others. -/
theorem perm_inFlight (hk : p.inFlight[k]? = some op) :
    p.inFlight.Perm (op :: p.inFlight.eraseIdx k) := by
  obtain ⟨hlt, rfl⟩ := List.getElem?_eq_some_iff.1 hk
  exact (List.getElem_cons_eraseIdx_perm hlt).symm

/-- A step that leaves the `HTML` objects alone. -/
theorem Own.congr (h : p.Own) (hobjects : p'.htmlObjects.Sublist p.htmlObjects)
    (hhtmls : ∀ i, p'.store.managedObjectContext.htmls.object i =
      p.store.managedObjectContext.htmls.object i) : p'.Own := by
  refine ⟨h.nodup.sublist hobjects, fun i hi => ?_⟩
  rw [hhtmls]
  exact h.blank i (hobjects.subset hi)

theorem htmlObjects_reply (r : Reply τ) : (p.reply r).1.htmlObjects =
    p.htmlObjects ++ r.started.toList.filterMap RenderingOp.htmlObject :=
  List.filterMap_append

theorem Own.searchPlaintextOfMsg {order : FetchOrders} {m : MCOIMAPMessage} {r : Reply τ}
    (h : p.Own) (hr : p.store.PlaintextSearch order m r) : (p.reply r).1.Own := by
  refine h.congr ?_ fun i => by rw [reply, hr.htmls]
  rw [htmlObjects_reply, hr.htmlObject, List.append_nil]

/-- A search for HTML starts at most one operation, on a new object. -/
theorem Own.searchHtmlOfMsg {msg : Msg τ} {r : Reply τ} (h : p.Own)
    (hr : p.store.HtmlSearch msg r) : (p.reply r).1.Own := by
  cases hr with
  | cached => exact h.congr (by simp [htmlObjects_reply]) fun i => rfl
  | stored => exact h.congr (by simp [htmlObjects_reply]) fun i => by simp [reply]
  | inserted =>
    have hsub : (p.reply ⟨none, p.store.insertHtml msg.szUid, p.store.setHtmlFromServer msg
        p.store.managedObjectContext.htmls.length⟩).1.htmlObjects.Sublist
          (p.htmlObjects ++ [p.store.managedObjectContext.htmls.length]) := by
      rw [htmlObjects_reply]
      cases hσ : p.store.imapSession <;>
        simp [ADZStoreMsgToCoreData.setHtmlFromServer, hσ, RenderingOp.htmlObject]
    have hnew : p.store.managedObjectContext.htmls.length ∉ p.htmlObjects := by
      intro hmem
      obtain ⟨o, ho, -⟩ := h.blank _ hmem
      exact (Table.lt_length_of_object ho).false
    refine ⟨(List.Nodup.append h.nodup (List.nodup_singleton _) ?_).sublist hsub, fun i hi => ?_⟩
    · exact List.disjoint_singleton.2 hnew
    · rcases List.mem_append.1 (hsub.subset hi) with hi | hi
      · obtain ⟨o, ho, hnone⟩ := h.blank i hi
        exact ⟨o, Table.object_insert_of_some ho, hnone⟩
      · rw [List.mem_singleton] at hi
        subst hi
        exact ⟨_, Table.object_insert_self, rfl⟩

theorem Own.plaintextCompleted (h : p.Own) (k i : ℕ) (t : Option τ) :
    (p.finish k (p.store.plaintextCompleted i t)).Own := by
  refine h.congr ((List.eraseIdx_sublist _ _).filterMap _) fun j => ?_
  show (p.store.plaintextCompleted i t).managedObjectContext.htmls.object j = _
  cases ho : p.store.managedObjectContext.summaries.object i with
  | none => simp only [ADZStoreMsgToCoreData.plaintextCompleted, ho]
  | some o =>
    rw [ADZStoreMsgToCoreData.plaintextCompleted_eq ho]
    simp only [ADZStoreMsgToCoreData.setCached, ← Table.getElem?_objects,
      NSManagedObjectContext.htmls_objects_save, ADZStoreMsgToCoreData.fillPlaintext_htmls]

theorem Own.htmlCompleted {msg : Msg τ} {σ : MCOIMAPSession} {i : ℕ} (h : p.Own)
    (hk : p.inFlight[k]? = some (.html msg σ i)) (t : Option τ) :
    (p.finish k (p.store.htmlCompleted i t)).Own := by
  have hperm : p.htmlObjects.Perm
      (i :: (p.finish k (p.store.htmlCompleted i t)).htmlObjects) :=
    (perm_inFlight hk).filterMap RenderingOp.htmlObject
  obtain ⟨hi, hnodup⟩ := List.nodup_cons.1 (hperm.nodup_iff.1 h.nodup)
  obtain ⟨o, ho, -⟩ := h.blank i (hperm.mem_iff.2 List.mem_cons_self)
  refine ⟨hnodup, fun j hj => ?_⟩
  obtain ⟨o', ho', hnone⟩ := h.blank j (hperm.mem_iff.2 (List.mem_cons_of_mem _ hj))
  refine ⟨o', ?_, hnone⟩
  show (p.store.htmlCompleted i t).managedObjectContext.htmls.object j = some o'
  rw [ADZStoreMsgToCoreData.htmlCompleted_eq ho,
    ADZStoreMsgToCoreData.setCachedHtml_managedObjectContext, ← Table.getElem?_objects,
    NSManagedObjectContext.htmls_objects_save, Table.getElem?_objects,
    ADZStoreMsgToCoreData.fillHtml_htmls, Table.object_update_of_ne, ho']
  rintro rfl
  exact hi hj

theorem Own.step (h : p.Own) (hs : StoreStep p a p' o) : p'.Own := by
  cases hs with
  | plaintextOfNil => exact h
  | htmlOfNil => exact h
  | searchPlaintextOfMsg hr => exact h.searchPlaintextOfMsg hr
  | searchHtmlOfMsg hr => exact h.searchHtmlOfMsg hr
  | plaintextCompleted hk t => exact h.plaintextCompleted _ _ t
  | htmlCompleted hk t => exact h.htmlCompleted hk t
  | dicCached => exact h.congr (List.Sublist.refl _) fun i => by simp
  | setImapSession σ => exact ⟨h.nodup, h.blank⟩
  | setDelegate d => exact ⟨h.nodup, h.blank⟩
  | restart => exact own_init _ _

end Process

/-! ### Failures -/

/-- The action is the completion of an operation with an error. -/
def AttachmentAction.fails : AttachmentAction τ β → Bool
  | .store (.complete _ result) => result.isNone
  | .completeFetch _ data => data.isNone
  | _ => false

namespace AttachmentProcess

/-- What the store holds, with the bytes of its attachments. -/
def contents (p : AttachmentProcess τ β) : Contents τ × List (Option β) :=
  (p.process.store.contents, p.attachments.objects.map ADZMessageAttachment.dataContent)

/-- A failure leaves the contents as they were. -/
def FailureIntact (p : AttachmentProcess τ β) (a : AttachmentAction τ β)
    (p' : AttachmentProcess τ β) : Prop :=
  a.fails = true → p'.contents = p.contents

/-- The condition on a step: an operation only fails if it renders HTML, and no HTML is cached for
its message. -/
def LosesNothing (p : AttachmentProcess τ β) : AttachmentAction τ β → Prop
  | .store (.complete k none) => ∀ op ∈ p.process.inFlight[k]?, op.kind = .html ∧
      (p.process.store.cached op.msg.szUid).bind ADZCached.szHtml = none
  | _ => True

instance (p : AttachmentProcess τ β) : (a : AttachmentAction τ β) → Decidable (p.LosesNothing a)
  | .store (.complete k none) => inferInstanceAs (Decidable (∀ op ∈ p.process.inFlight[k]?, _ ∧ _))
  | .store (.complete _ (some _)) => isTrue trivial
  | .store (.searchPlaintextOfMsg ..) => isTrue trivial
  | .store (.searchHtmlOfMsg ..) => isTrue trivial
  | .store .dicCached => isTrue trivial
  | .store (.setImapSession _) => isTrue trivial
  | .store (.setDelegate _) => isTrue trivial
  | .store .restart => isTrue trivial
  | .searchAttachmentOfMsg .. => isTrue trivial
  | .completeFetch .. => isTrue trivial

/-- What holds of the store in every run. -/
structure Sound (p : AttachmentProcess τ β) : Prop where
  indexed : p.process.Indexed
  linked : p.process.Linked
  own : p.process.Own
  committed : p.AsCommitted []

variable {p p' : AttachmentProcess τ β} {a : AttachmentAction τ β} {o : AttachmentObservation τ β}

theorem sound_init (σ : Option MCOIMAPSession) : (init (τ := τ) (β := β) .empty [] σ).Sound :=
  ⟨Process.indexed_init NSManagedObjectContext.indexed_empty, Process.linked_init _ _,
    Process.own_init _ _, asCommitted_init _ _⟩

@[simp] theorem after_process (process : Process τ) (a : Action τ) :
    (p.after process a).process = process := by
  cases a with
  | complete k result => unfold AttachmentProcess.after; split_ifs <;> rfl
  | _ => rfl

theorem Sound.step (h : p.Sound) (hs : Step p a p' o) : p'.Sound := by
  cases hs with
  | answered => exact h
  | raised =>
    exact ⟨h.indexed.step .restart, h.linked.step .restart, h.own.step .restart,
      h.committed.restart⟩
  | store hs =>
    have hs := storeStep_of_next hs
    exact ⟨by simpa using h.indexed.step hs, by simpa using h.linked.step hs,
      by simpa using h.own.step hs, h.committed.after _ _⟩

/-- The attachments show nothing of what the rest of the store does. -/
theorem contents_after_iff (h : p.Sound) (process : Process τ) (a : Action τ) :
    (p.after process a).contents = p.contents ↔ process.store.contents = p.process.store.contents := by
  have hsame : (p.after process a).attachments = p.attachments :=
    (h.committed.after process a).attachments.trans h.committed.attachments.symm
  simp [contents, hsame]

/-- A plain text that fails always leaves a trace. -/
theorem Sound.plaintextFailed_iff {k i : ℕ} {m : MCOIMAPMessage} {σ : MCOIMAPSession}
    (h : p.Sound) (hk : p.process.inFlight[k]? = some (.plainTextBody m σ i)) :
    p.LosesNothing (.store (.complete k none)) ↔
      (p.process.store.plaintextCompleted i none).contents = p.process.store.contents := by
  obtain ⟨o, ho, -⟩ := h.linked _ (List.mem_of_getElem? hk)
  obtain ⟨j, hj⟩ := h.indexed.inFlight _ (List.mem_of_getElem? hk) rfl
  constructor
  · intro hC
    exact absurd (hC _ hk).1 (by simp [RenderingOp.kind])
  · intro heq
    exact absurd heq
      (ADZStoreMsgToCoreData.contents_plaintextCompleted_ne ho h.indexed.store hj)

/-- HTML that fails leaves no trace exactly if none is cached. -/
theorem Sound.htmlFailed_iff {k i : ℕ} {msg : Msg τ} {σ : MCOIMAPSession}
    (h : p.Sound) (hk : p.process.inFlight[k]? = some (.html msg σ i)) :
    p.LosesNothing (.store (.complete k none)) ↔
      (p.process.store.htmlCompleted i none).contents = p.process.store.contents := by
  have hmem := List.mem_of_getElem? hk
  obtain ⟨o, ho, hkey⟩ := h.linked _ hmem
  obtain ⟨o', ho', hnone⟩ := h.own.blank i (List.mem_filterMap.2 ⟨_, hmem, rfl⟩)
  cases ho.symm.trans ho'
  rw [ADZStoreMsgToCoreData.contents_htmlCompleted_iff ho hnone, hkey]
  constructor
  · exact fun hC => (hC _ hk).2
  · intro hcached op hop
    cases hk.symm.trans hop
    exact ⟨rfl, hcached⟩

/-- A step does no harm exactly if it meets the condition. -/
theorem Sound.losesNothing_iff (h : p.Sound) (hs : Step p a p' o) :
    p.LosesNothing a ↔ p.FailureIntact a p' := by
  have hquiet : a.fails = false → p.LosesNothing a → (p.LosesNothing a ↔ p.FailureIntact a p') :=
    fun hfails hC => ⟨fun _ hfails' => absurd (hfails.symm.trans hfails') (by simp), fun _ => hC⟩
  have hfailed : a.fails = true → (p.FailureIntact a p' ↔ p'.contents = p.contents) :=
    fun hfails => ⟨fun hintact => hintact hfails, fun heq _ => heq⟩
  cases hs with
  | answered => exact hquiet rfl trivial
  | raised => exact hquiet rfl trivial
  | store hs =>
    cases storeStep_of_next hs with
    | plaintextCompleted hk t =>
      cases t with
      | some t => exact hquiet rfl trivial
      | none =>
        rw [hfailed rfl, contents_after_iff h]
        exact h.plaintextFailed_iff hk
    | htmlCompleted hk t =>
      cases t with
      | some t => exact hquiet rfl trivial
      | none =>
        rw [hfailed rfl, contents_after_iff h]
        exact h.htmlFailed_iff hk
    | plaintextOfNil => exact hquiet rfl trivial
    | htmlOfNil => exact hquiet rfl trivial
    | searchPlaintextOfMsg => exact hquiet rfl trivial
    | searchHtmlOfMsg => exact hquiet rfl trivial
    | dicCached => exact hquiet rfl trivial
    | setImapSession => exact hquiet rfl trivial
    | setDelegate => exact hquiet rfl trivial
    | restart => exact hquiet rfl trivial

end AttachmentProcess

/-! ### Runs -/

/-- **A failure is as no answer** throughout a run exactly if the operations that fail render HTML
and find no HTML in the cache. -/
theorem failures_intact_iff {σ₀ : Option MCOIMAPSession} {h : List (AttachmentEvent τ β)}
    {p : AttachmentProcess τ β} (hr : (attachmentSystem τ β).Run (.init .empty [] σ₀) h p) :
    (attachmentSystem τ β).Throughout AttachmentProcess.FailureIntact (.init .empty [] σ₀) h ↔
      (attachmentSystem τ β).RunWhere AttachmentProcess.LosesNothing (.init .empty [] σ₀) h p := by
  refine hr.throughout_iff (AttachmentProcess.sound_init σ₀) fun p a o p' hp hs => ?_
  have hstep := hp.committed.step_of_next hs
  exact ⟨hp.step hstep, hp.losesNothing_iff hstep⟩

/-- HTML fails before any is cached. -/
theorem failures_intact_html :
    ∃ h p, (attachmentSystem String ℕ).Run (.init .empty [] (some (account "first"))) h p ∧
      h.map Prod.fst = [.store (.searchPlaintextOfMsg .insertion (some (mail 1))),
        .store (.searchHtmlOfMsg .insertion (some (.imap (mail 1)))),
        .store (.complete 0 (some "text")), .store (.complete 0 none)] ∧
      (∃ e ∈ h, e.1.fails = true) ∧ (attachmentSystem String ℕ).Throughout
        AttachmentProcess.FailureIntact (.init .empty [] (some (account "first"))) h :=
  (attachmentSystem String ℕ).exists_run_of_actions AttachmentProcess.LosesNothing _ _
    (by decide +kernel) fun _ _ hr => (failures_intact_iff hr.run).2 hr

/-- A plain text fails, and its uid is in the index. -/
theorem not_failures_intact :
    ¬ ∀ (h : List (AttachmentEvent String ℕ)) (p p' : AttachmentProcess String ℕ)
      (a : AttachmentAction String ℕ) (o : AttachmentObservation String ℕ),
      (attachmentSystem String ℕ).Run (.init .empty [] (some (account "first"))) h p →
        (attachmentSystem String ℕ).next p a = some (p', o) → a.fails = true →
          p'.contents = p.contents := by
  intro hall
  obtain ⟨h, p, hr, hbefore, hafter⟩ := (attachmentSystem String ℕ).exists_run_of_exec
    (fun _ _ => True) (.init .empty [] (some (account "first")))
    [.store (.searchPlaintextOfMsg .insertion (some (mail 1)))]
    (fun _ p => p.contents.1.szUids = [none] ∧
      (((attachmentSystem String ℕ).next p (.store (.complete 0 none))).any fun r =>
        decide (r.1.contents.1.szUids = [some "(null), 1".toList])) = true) (by decide +kernel)
  obtain ⟨⟨p', o⟩, hs, hszUids⟩ := (Option.any_eq_true _ _).1 hafter
  have hsame := congrArg (fun c => c.1.szUids) (hall h p p' _ o hr hs rfl)
  simp only [hbefore, of_decide_eq_true hszUids] at hsame
  exact absurd hsame (by simp)

end SecMail
