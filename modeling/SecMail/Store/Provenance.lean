import SecMail.Store.Step

/-!
# Where the texts of the store come from

A text reaches the store only through the completion of a rendering operation, and is then
copied between objects, committed rows and the cache.  `Holds Ok` says that every text held
anywhere in the store is allowed by `Ok` for its kind and key, for any predicate `Ok`;
`Process.holds_of_run` proves it for every run whose deliveries `Ok` allows.  With "was delivered
earlier in the run" for `Ok` this gives

* `answers_delivered` : a search only answers with texts rendered for the uid it asks for;
* `mailbox_isolated` : it answers with a text of the current mailbox if no other mailbox has
  delivered a text for the same uid.  Without this condition it need not
  (`not_mailbox_isolated`): neither the cache nor the objects record an account.
-/

namespace SecMail

variable {τ : Type*} {Ok : Kind → NSString → τ → Prop}

/-- Every text of the context, saved or not, is allowed by `Ok`. -/
structure NSManagedObjectContext.Holds (Ok : Kind → NSString → τ → Prop)
    (c : NSManagedObjectContext τ) : Prop where
  summary : ∀ i o t, c.summaries.object i = some o → o.szPlaintext = some t →
    Ok .plaintext o.szUid t
  html : ∀ i o t, c.htmls.object i = some o → o.szHtml = some t → Ok .html o.szUid t
  summaryRow : ∀ r ∈ c.summaries.rows, Ok .plaintext r.szUid r.szPlaintext
  htmlRow : ∀ r ∈ c.htmls.rows, Ok .html r.szUid r.szHtml

/-- Every text of the context and of the cache is allowed by `Ok`. -/
structure ADZStoreMsgToCoreData.Holds (Ok : Kind → NSString → τ → Prop)
    (s : ADZStoreMsgToCoreData τ) : Prop where
  context : s.managedObjectContext.Holds Ok
  plaintext : ∀ k item t, s.cached k = some item → item.szPlaintext = some t → Ok .plaintext k t
  html : ∀ k item t, s.cached k = some item → item.szHtml = some t → Ok .html k t

/-! ### The context -/

namespace NSManagedObjectContext

variable {c : NSManagedObjectContext τ}

theorem holds_empty : (empty : NSManagedObjectContext τ).Holds Ok := by
  constructor <;> simp [empty, Table.object, Table.rows]

theorem Holds.save (h : c.Holds Ok) : c.save.Holds Ok := by
  unfold NSManagedObjectContext.save
  split_ifs
  · refine ⟨fun i o t ho => ?_, fun i o t ho => ?_, fun r hr => ?_, fun r hr => ?_⟩
    · exact h.summary i o t (Entity.object_commit.symm.trans ho)
    · exact h.html i o t (Entity.object_commit.symm.trans ho)
    · obtain ⟨i, hi⟩ := Entity.mem_rows_commit.1 hr
      exact h.summary i _ _ hi rfl
    · obtain ⟨i, hi⟩ := Entity.mem_rows_commit.1 hr
      exact h.html i _ _ hi rfl
  · exact h

theorem Holds.restart (h : c.Holds Ok) : c.restart.Holds Ok := by
  refine ⟨fun i o t ho ht => ?_, fun i o t ho ht => ?_, fun r hr => ?_, fun r hr => ?_⟩
  · obtain ⟨r, hr, rfl⟩ := Option.map_eq_some_iff.1 (Entity.object_reload.symm.trans ho)
    cases ht
    exact h.summaryRow r (List.mem_of_getElem? hr)
  · obtain ⟨r, hr, rfl⟩ := Option.map_eq_some_iff.1 (Entity.object_reload.symm.trans ho)
    cases ht
    exact h.htmlRow r (List.mem_of_getElem? hr)
  · exact h.summaryRow r (by simpa [NSManagedObjectContext.restart] using hr)
  · exact h.htmlRow r (by simpa [NSManagedObjectContext.restart] using hr)

end NSManagedObjectContext

/-! ### The store -/

namespace ADZStoreMsgToCoreData

variable {s : ADZStoreMsgToCoreData τ} {order : FetchOrders}

theorem holds_init {c : NSManagedObjectContext τ} {σ : Option MCOIMAPSession} (h : c.Holds Ok) :
    (init c σ).Holds Ok := by
  refine ⟨h, ?_, ?_⟩ <;> simp [init, cached]

/-- The getters keep the texts. -/
theorem Holds.dicCached (h : s.Holds Ok) : s.dicCached.Holds Ok :=
  ⟨by simpa using h.context, fun k item t hc => h.plaintext k item t (cached_of_dicCached hc),
    fun k item t hc => h.html k item t (cached_of_dicCached hc)⟩

theorem Holds.uids (h : s.Holds Ok) : (s.uids order).Holds Ok := by
  refine ⟨⟨?_, ?_, ?_, ?_⟩, ?_, ?_⟩
  · simpa using h.context.summary
  · simpa using h.context.html
  · simpa using h.context.summaryRow
  · simpa using h.context.htmlRow
  · simpa using h.plaintext
  · simpa using h.html

theorem Holds.removeCached (h : s.Holds Ok) (k : NSString) : (s.removeCached k).Holds Ok :=
  ⟨h.context, fun k' item t hc => h.plaintext k' item t (cached_removeCached hc).2,
    fun k' item t hc => h.html k' item t (cached_removeCached hc).2⟩

/-- Caching a plain text drops the HTML of the item. -/
theorem Holds.setCached (h : s.Holds Ok) {k : NSString} {t : Option τ}
    (ht : ∀ t', t = some t' → Ok .plaintext k t') : (s.setCached k ⟨t, none⟩).Holds Ok := by
  refine ⟨h.context, fun k' item t' hc ht' => ?_, fun k' item t' hc ht' => ?_⟩
  · rcases cached_setCached hc with ⟨rfl, rfl⟩ | hc
    · exact ht t' ht'
    · exact h.plaintext k' item t' hc ht'
  · rcases cached_setCached hc with ⟨rfl, rfl⟩ | hc
    · cases ht'
    · exact h.html k' item t' hc ht'

theorem Holds.setCachedHtml (h : s.Holds Ok) {k : NSString} {t : Option τ}
    (ht : ∀ t', t = some t' → Ok .html k t') : (s.setCachedHtml k t).Holds Ok := by
  refine ⟨by simpa using h.context, fun k' item t' hc ht' => ?_, fun k' item t' hc ht' => ?_⟩
  · rcases cached_setCachedHtml hc with hc | ⟨old, hold, rfl, rfl⟩
    · exact h.plaintext k' item t' hc ht'
    · exact h.plaintext _ old t' hold ht'
  · rcases cached_setCachedHtml hc with hc | ⟨old, -, rfl, rfl⟩
    · exact h.html k' item t' hc ht'
    · exact ht t' ht'

theorem Holds.withContext (h : s.Holds Ok) {c : NSManagedObjectContext τ} (hc : c.Holds Ok) :
    ({ s with managedObjectContext := c } : ADZStoreMsgToCoreData τ).Holds Ok :=
  ⟨hc, h.plaintext, h.html⟩

theorem Holds.fillPlaintext (h : s.Holds Ok) {i : ℕ} {o : ADZMessageSummary τ} {t : Option τ}
    (ho : s.managedObjectContext.summaries.object i = some o)
    (ht : ∀ t', t = some t' → Ok .plaintext o.szUid t') :
    (s.fillPlaintext i o.szUid t).Holds Ok := by
  refine ⟨fun j o' t' ho' ht' => ?_, h.context.html, ?_, h.context.htmlRow⟩
  · rw [fillPlaintext_summaries] at ho'
    obtain ⟨o₁, ho₁, rfl⟩ := Table.object_update_eq_some ho'
    split_ifs at ht' ⊢ with hij
    · subst hij
      cases ho.symm.trans ho₁
      exact ht t' ht'
    · exact h.context.summary j o₁ t' ho₁ ht'
  · simpa using h.context.summaryRow

theorem Holds.fillHtml (h : s.Holds Ok) {i : ℕ} {o : ADZHtml τ} {t : Option τ}
    (ho : s.managedObjectContext.htmls.object i = some o)
    (ht : ∀ t', t = some t' → Ok .html o.szUid t') : (s.fillHtml i t).Holds Ok := by
  refine ⟨h.context.summary, fun j o' t' ho' ht' => ?_, h.context.summaryRow, ?_⟩
  · rw [fillHtml_htmls] at ho'
    obtain ⟨o₁, ho₁, rfl⟩ := Table.object_update_eq_some ho'
    split_ifs at ht' ⊢ with hij
    · subst hij
      cases ho.symm.trans ho₁
      exact ht t' ht'
    · exact h.context.html j o₁ t' ho₁ ht'
  · simpa using h.context.htmlRow

theorem Holds.plaintextCompleted (h : s.Holds Ok) {i : ℕ} {t : Option τ} {k : NSString}
    (hi : ∃ o, s.managedObjectContext.summaries.object i = some o ∧ o.szUid = k)
    (ht : ∀ t', t = some t' → Ok .plaintext k t') : (s.plaintextCompleted i t).Holds Ok := by
  obtain ⟨o, ho, rfl⟩ := hi
  rw [plaintextCompleted_eq ho]
  exact (h.withContext (h.fillPlaintext ho ht).save).setCached ht

theorem Holds.htmlCompleted (h : s.Holds Ok) {i : ℕ} {t : Option τ} {k : NSString}
    (hi : ∃ o, s.managedObjectContext.htmls.object i = some o ∧ o.szUid = k)
    (ht : ∀ t', t = some t' → Ok .html k t') : (s.htmlCompleted i t).Holds Ok := by
  obtain ⟨o, ho, rfl⟩ := hi
  rw [htmlCompleted_eq ho]
  exact (h.withContext (h.fillHtml ho ht).save).setCachedHtml ht

theorem Holds.insertSummary (h : s.Holds Ok) (m : MCOIMAPMessage) :
    (s.insertSummary m).Holds Ok := by
  refine h.withContext ⟨fun i o t ho ht => ?_, h.context.html, ?_, h.context.htmlRow⟩
  · rcases Table.object_insert_eq_some.1 ho with ho | ⟨-, rfl⟩
    · exact h.context.summary i o t ho ht
    · cases ht
  · simpa using h.context.summaryRow

theorem Holds.insertHtml (h : s.Holds Ok) (k : NSString) : (s.insertHtml k).Holds Ok := by
  refine h.withContext ⟨h.context.summary, fun i o t ho ht => ?_, h.context.summaryRow, ?_⟩
  · rcases Table.object_insert_eq_some.1 ho with ho | ⟨-, rfl⟩
    · exact h.context.html i o t ho ht
    · cases ht
  · simpa using h.context.htmlRow

/-- A search keeps the texts, and returns one of them. -/
theorem PlaintextSearch.holds {m : MCOIMAPMessage} {r : Reply τ} (hr : PlaintextSearch s order m r)
    (h : s.Holds Ok) : r.store.Holds Ok ∧ ∀ t, r.returned = some t → Ok .plaintext m.szUid t := by
  cases hr with
  | @cached item t hc ht =>
    refine ⟨h.dicCached, fun t' ht' => ?_⟩
    cases ht'
    exact h.dicCached.plaintext _ item t hc ht
  | dropped => exact ⟨h.dicCached.removeCached _, fun _ ht => nomatch ht⟩
  | missing => exact ⟨h.dicCached.uids, fun _ ht => nomatch ht⟩
  | retried => exact ⟨h.dicCached.uids, fun _ ht => nomatch ht⟩
  | @stored i o t hc hl ho hk ht =>
    have hOk : Ok .plaintext m.szUid t := hk ▸ h.context.summary i o t ho ht
    refine ⟨h.dicCached.uids.setCached fun t' ht' => ?_, fun t' ht' => ?_⟩
    · cases ht'; exact hOk
    · cases ht'; exact hOk
  | inserted => exact ⟨h.dicCached.uids.insertSummary m, fun _ ht => nomatch ht⟩

theorem HtmlSearch.holds {msg : Msg τ} {r : Reply τ} (hr : HtmlSearch s msg r) (h : s.Holds Ok) :
    r.store.Holds Ok ∧ ∀ t, r.returned = some t → Ok .html msg.szUid t := by
  cases hr with
  | @cached item t hc ht =>
    refine ⟨h, fun t' ht' => ?_⟩
    cases ht'
    exact h.html _ item t hc ht
  | @stored i o t ho hk ht =>
    have hOk : Ok .html msg.szUid t := hk ▸ h.context.html i o t ho ht
    refine ⟨h.setCachedHtml fun t' ht' => ?_, fun t' ht' => ?_⟩
    · cases ht'; exact hOk
    · cases ht'; exact hOk
  | inserted => exact ⟨h.insertHtml _, fun _ ht => nomatch ht⟩

end ADZStoreMsgToCoreData

/-! ### Runs -/

/-- The operation `op` delivered the text `t` in the history `h`. -/
def Delivered (h : List (Event τ)) (op : RenderingOp τ) (t : τ) : Prop :=
  ∃ k d, (Action.complete k (some t), Observation.completed op d) ∈ h

/-- The operation `op` was started in `h`, by a search for its row. -/
def Started (h : List (Event τ)) (op : RenderingOp τ) : Prop :=
  ∃ order, match op with
    | .plainTextBody m _ _ => (.searchPlaintextOfMsg order (some m), .answered none (some op)) ∈ h
    | .html msg _ _ => (.searchHtmlOfMsg order (some msg), .answered none (some op)) ∈ h

/-- The operation `op` was started by a search for the message `m`, and later delivered `t`. -/
structure Rendered (h : List (Event τ)) (op : RenderingOp τ) (m : MCOIMAPMessage) (t : τ) :
    Prop where
  msg : op.msg = .imap m
  delivered : ∃ h₁ k d h₂, Started h₁ op ∧
    h = h₁ ++ (Action.complete k (some t), Observation.completed op d) :: h₂

/-- The texts delivered in a history, with the operations that delivered them. -/
def deliveries (h : List (Event τ)) : List (RenderingOp τ × τ) :=
  h.filterMap fun e =>
    match e with
    | (.complete _ (some t), .completed op _) => some (op, t)
    | _ => none

section History

variable {h : List (Event τ)} {e : Event τ} {op : RenderingOp τ} {m : MCOIMAPMessage} {t : τ}

theorem Started.snoc (hs : Started h op) : Started (h ++ [e]) op := by
  obtain ⟨order, hm⟩ := hs
  cases op with
  | plainTextBody => exact ⟨order, List.mem_append_left _ hm⟩
  | html => exact ⟨order, List.mem_append_left _ hm⟩

theorem Rendered.append (hr : Rendered h op m t) (h' : List (Event τ)) :
    Rendered (h ++ h') op m t := by
  obtain ⟨hm, h₁, k, d, h₂, hs, rfl⟩ := hr
  exact ⟨hm, h₁, k, d, h₂ ++ h', hs, by simp⟩

theorem Delivered.snoc (hd : Delivered h op t) : Delivered (h ++ [e]) op t := by
  obtain ⟨k, d, hm⟩ := hd
  exact ⟨k, d, List.mem_append_left _ hm⟩

theorem delivered_of_mem_deliveries (hm : (op, t) ∈ deliveries h) : Delivered h op t := by
  obtain ⟨e, he, hop⟩ := List.mem_filterMap.1 hm
  split at hop
  · cases hop
    exact ⟨_, _, he⟩
  · cases hop

theorem Rendered.mem_deliveries (hr : Rendered h op m t) : (op, t) ∈ deliveries h := by
  obtain ⟨-, h₁, k, d, h₂, -, rfl⟩ := hr
  simp [deliveries]

end History

namespace Process

variable {p p' p₀ : Process τ} {a : Action τ} {o : Observation τ} {h : List (Event τ)}
  {C : Process τ → Action τ → Prop}

theorem holds_step (hs : StoreStep p a p' o) (hl : p.Linked) (hp : p.store.Holds Ok)
    (hd : ∀ k t op d, a = .complete k (some t) → o = .completed op d → Ok op.kind op.msg.szUid t) :
    p'.store.Holds Ok := by
  cases hs with
  | plaintextOfNil => exact hp
  | htmlOfNil => exact hp
  | searchPlaintextOfMsg hr => exact (hr.holds hp).1
  | searchHtmlOfMsg hr => exact (hr.holds hp).1
  | @plaintextCompleted k m σ i hk t =>
    refine hp.plaintextCompleted (hl _ (List.mem_of_getElem? hk)) ?_
    rintro t rfl
    exact hd k t _ _ rfl rfl
  | @htmlCompleted k m σ i hk t =>
    refine hp.htmlCompleted (hl _ (List.mem_of_getElem? hk)) ?_
    rintro t rfl
    exact hd k t _ _ rfl rfl
  | dicCached => exact hp.dicCached
  | setImapSession σ => exact ⟨hp.context, hp.plaintext, hp.html⟩
  | setDelegate d => exact ⟨hp.context, hp.plaintext, hp.html⟩
  | restart => exact ADZStoreMsgToCoreData.holds_init hp.context.restart

/-- **Texts come from completions.**  A run that starts with allowed texts and only delivers
allowed texts holds allowed texts. -/
theorem holds_of_run (hr : (storeSystem τ).RunWhere C p₀ h p) (h₀ : p₀.inFlight = [])
    (hp₀ : p₀.store.Holds Ok) (hd : ∀ op t, Delivered h op t → Ok op.kind op.msg.szUid t) :
    p.store.Holds Ok := by
  induction hr with
  | nil => exact hp₀
  | snoc hr _ hs ih =>
    have hp := ih fun op t hdel => hd op t hdel.snoc
    refine holds_step (storeStep_of_next hs) (linked_of_run hr h₀) hp
      fun k t op d ha ho => hd op t ⟨k, d, ?_⟩
    simp [ha, ho]

/-- An operation in progress was started by the search just made, or before. -/
theorem started_step (hs : StoreStep p a p' o) (hf : ∀ op ∈ p.inFlight, Started h op) :
    ∀ op ∈ p'.inFlight, Started (h ++ [(a, o)]) op := by
  intro op hop
  cases hs with
  | plaintextOfNil => exact (hf op hop).snoc
  | htmlOfNil => exact (hf op hop).snoc
  | @searchPlaintextOfMsg order m r hr =>
    rcases List.mem_append.1 hop with hop | hop
    · exact (hf op hop).snoc
    · have hst := Option.mem_toList.1 hop
      cases hr with
      | cached => cases hst
      | dropped => cases hst
      | missing => cases hst
      | stored => cases hst
      | retried =>
        obtain ⟨σ, -, rfl⟩ := Option.map_eq_some_iff.1 hst
        exact ⟨order, List.mem_append_right _ (by simp_all [reply])⟩
      | inserted =>
        obtain ⟨σ, -, rfl⟩ := Option.map_eq_some_iff.1 hst
        exact ⟨order, List.mem_append_right _ (by simp_all [reply])⟩
  | @searchHtmlOfMsg order msg r hr =>
    rcases List.mem_append.1 hop with hop | hop
    · exact (hf op hop).snoc
    · have hst := Option.mem_toList.1 hop
      cases hr with
      | cached => cases hst
      | stored => cases hst
      | inserted =>
        obtain ⟨σ, -, rfl⟩ := Option.map_eq_some_iff.1 hst
        exact ⟨order, List.mem_append_right _ (by simp_all [reply])⟩
  | plaintextCompleted hk t => exact (hf op (List.mem_of_mem_eraseIdx hop)).snoc
  | htmlCompleted hk t => exact (hf op (List.mem_of_mem_eraseIdx hop)).snoc
  | dicCached => exact (hf op hop).snoc
  | setImapSession σ => exact (hf op hop).snoc
  | setDelegate d => exact (hf op hop).snoc
  | restart => cases hop

theorem started_of_run (hr : (storeSystem τ).RunWhere C p₀ h p) (h₀ : p₀.inFlight = []) :
    ∀ op ∈ p.inFlight, Started h op := by
  induction hr with
  | nil => simp [h₀]
  | snoc _ _ hs ih => exact started_step (storeStep_of_next hs) ih

/-- What is delivered in a run was rendered in it: started before, for a message. -/
theorem rendered_of_run (hr : (storeSystem τ).RunWhere C p₀ h p) (h₀ : p₀.inFlight = [])
    {op : RenderingOp τ} {t : τ} (hd : Delivered h op t) : ∃ m, Rendered h op m t := by
  obtain ⟨k, d, hm⟩ := hd
  induction hr with
  | nil => cases hm
  | @snoc h p p' a o hr _ hs ih =>
    rcases List.mem_append.1 hm with hm | hm
    · obtain ⟨m, hm⟩ := ih hm
      exact ⟨m, hm.append _⟩
    · simp only [List.mem_singleton, Prod.mk.injEq] at hm
      obtain ⟨rfl, rfl⟩ := hm
      have hf := started_of_run hr h₀
      cases storeStep_of_next hs with
      | plaintextCompleted hk t =>
        exact ⟨_, rfl, h, k, none, [], hf _ (List.mem_of_getElem? hk), rfl⟩
      | htmlCompleted hk t =>
        exact ⟨_, rfl, h, k, _, [], hf _ (List.mem_of_getElem? hk), rfl⟩

end Process

/-! ### Answers of searches -/

/-- The search for the text of kind `k` of a message. -/
def ADZStoreMsgToCoreData.searchTextOfMsg (s : ADZStoreMsgToCoreData τ) (order : FetchOrders)
    (m : MCOIMAPMessage) : Kind → Reply τ
  | .plaintext => s.searchPlaintextOfMsg order (some m)
  | .html => s.searchHtmlOfMsg order (some (.imap m))

theorem ADZStoreMsgToCoreData.Holds.returned {s : ADZStoreMsgToCoreData τ} (h : s.Holds Ok)
    {order : FetchOrders} {m : MCOIMAPMessage} {k : Kind} {t : τ}
    (ht : (s.searchTextOfMsg order m k).returned = some t) : Ok k m.szUid t := by
  cases k with
  | plaintext => exact ((s.searchPlaintextOfMsg_cases order m).holds h).2 t ht
  | html => exact ((s.searchHtmlOfMsg_cases order (.imap m)).holds h).2 t ht

/-- Every text of the store was rendered before, under the same key and of the same kind. -/
theorem Process.holds_rendered {p : Process τ} {h : List (Event τ)} {σ₀ : Option MCOIMAPSession}
    (hr : (storeSystem τ).Run (.init .empty σ₀) h p) :
    p.store.Holds fun k szUid t =>
      ∃ op m, Rendered h op m t ∧ op.kind = k ∧ m.szUid = szUid := by
  refine holds_of_run hr rfl
    (ADZStoreMsgToCoreData.holds_init NSManagedObjectContext.holds_empty) fun op t hd => ?_
  obtain ⟨m, hm⟩ := rendered_of_run hr rfl hd
  exact ⟨op, m, hm, rfl, by rw [hm.msg]; rfl⟩

/-- Answers were rendered before, for the same uid and kind. -/
theorem Process.returned_of_run {p : Process τ} {h : List (Event τ)} {σ₀ : Option MCOIMAPSession}
    (hr : (storeSystem τ).Run (.init .empty σ₀) h p) {order : FetchOrders} {m : MCOIMAPMessage}
    {k : Kind} {t : τ} (ht : (p.store.searchTextOfMsg order m k).returned = some t) :
    ∃ op m', Rendered h op m' t ∧ op.kind = k ∧ m'.uid = m.uid := by
  obtain ⟨op, m', hm', hk, hu⟩ := (holds_rendered hr).returned ht
  exact ⟨op, m', hm', hk, MCOIMAPMessage.szUid_eq_iff.1 hu⟩

/-- **Texts never cross between uids or kinds.**  In every run from the empty database, a search
for a message only answers with a text that an operation of the same kind, started earlier for a
message with the same uid, has delivered. -/
theorem answers_delivered {p : Process τ} {h : List (Event τ)} {σ₀ : Option MCOIMAPSession}
    (hr : (storeSystem τ).Run (.init .empty σ₀) h p) (order : FetchOrders) (m : MCOIMAPMessage) :
    (∀ t, (p.store.searchPlaintextOfMsg order (some m)).returned = some t →
      ∃ op m', Rendered h op m' t ∧ op.kind = .plaintext ∧ m'.uid = m.uid) ∧
    ∀ t, (p.store.searchHtmlOfMsg order (some (.imap m))).returned = some t →
      ∃ op m', Rendered h op m' t ∧ op.kind = .html ∧ m'.uid = m.uid := by
  refine ⟨fun t ht => ?_, fun t ht => ?_⟩
  · exact Process.returned_of_run (k := .plaintext) hr ht
  · exact Process.returned_of_run (k := .html) hr ht

theorem answers_delivered_mail5 :
    ∃ h p, (storeSystem String).Run (.init .empty (some (account "first"))) h p ∧
      h.map Prod.fst = [.searchPlaintextOfMsg .insertion (some (mail 5)),
        .complete 0 (some "hello")] ∧
      ∃ op m', Rendered h op m' "hello" ∧ op.kind = .plaintext ∧ m'.uid = 5 := by
  obtain ⟨h, p, hr, hactions, ht, hdelivered⟩ := (storeSystem String).exists_run_of_actions
    (fun _ _ => True) (.init .empty (some (account "first")))
    [.searchPlaintextOfMsg .insertion (some (mail 5)), .complete 0 (some "hello")]
    (P := fun _ p =>
      (p.store.searchPlaintextOfMsg .insertion (some (mail 5))).returned = some "hello")
    (by decide) fun _ _ hr => (answers_delivered hr .insertion (mail 5)).1 "hello"
  exact ⟨h, p, hr, hactions, hdelivered ht⟩

/-! ### Mailboxes -/

/-- What a uid is unique in. -/
structure Mailbox where
  hostname : NSString
  username : NSString
  uidValidity : UInt32
  deriving DecidableEq

/-- The mailbox a session shows. -/
def MCOIMAPSession.mailbox (σ : MCOIMAPSession) : Mailbox :=
  ⟨σ.hostname, σ.username, σ.uidValidity⟩

/-- Another mailbox than that of `σ` has delivered a text of kind `k` for the uid `u`. -/
def DeliveredElsewhere (h : List (Event τ)) (σ : MCOIMAPSession) (k : Kind) (u : UInt32) : Prop :=
  ∃ op m t, Rendered h op m t ∧ op.kind = k ∧ m.uid = u ∧ op.session.mailbox ≠ σ.mailbox

/-- Whatever the search for the text of kind `k` of `m` answers was rendered from the mailbox
of `σ`. -/
def IsolatedSearch (h : List (Event τ)) (p : Process τ) (σ : MCOIMAPSession) (m : MCOIMAPMessage)
    (k : Kind) : Prop :=
  ∀ order t, (p.store.searchTextOfMsg order m k).returned = some t →
    ∃ op m', Rendered h op m' t ∧ op.session.mailbox = σ.mailbox

/-- Every search answers from the mailbox of the current session. -/
def MailboxIsolated (h : List (Event τ)) (p : Process τ) : Prop :=
  ∀ σ, p.store.imapSession = some σ → ∀ m k, IsolatedSearch h p σ m k

/-- **Mailboxes with disjoint uids are isolated.**  In every run from the empty database, a
search answers from the mailbox of a session, such as the current one, if no other mailbox has
delivered a text of the same kind for the same uid. -/
theorem mailbox_isolated {p : Process τ} {h : List (Event τ)} {σ₀ : Option MCOIMAPSession}
    (hr : (storeSystem τ).Run (.init .empty σ₀) h p) (σ : MCOIMAPSession) (m : MCOIMAPMessage)
    (k : Kind) (hC : ¬ DeliveredElsewhere h σ k m.uid) : IsolatedSearch h p σ m k := by
  intro order t ht
  obtain ⟨op, m', hm', hk, hu⟩ := Process.returned_of_run hr ht
  refine ⟨op, m', hm', ?_⟩
  by_contra hσ
  exact hC ⟨op, m', t, hm', hk, hu, hσ⟩

theorem mailbox_isolated_five_six :
    ∃ h p, (storeSystem String).Run (.init .empty (some (account "first"))) h p ∧
      h.map Prod.fst = [.searchPlaintextOfMsg .insertion (some (mail 5)),
        .complete 0 (some "first"), .setImapSession (account "second"),
        .searchPlaintextOfMsg .insertion (some (mail 6)), .complete 0 (some "second")] ∧
      p.store.imapSession = some (account "second") ∧
      IsolatedSearch h p (account "second") (mail 6) .plaintext := by
  obtain ⟨h, p, hr, hactions, ⟨hσ, hd⟩, hisolated⟩ := (storeSystem String).exists_run_of_actions
    (fun _ _ => True) (.init .empty (some (account "first")))
    [.searchPlaintextOfMsg .insertion (some (mail 5)), .complete 0 (some "first"),
      .setImapSession (account "second"), .searchPlaintextOfMsg .insertion (some (mail 6)),
      .complete 0 (some "second")]
    (P := fun h p => p.store.imapSession = some (account "second") ∧
      ∀ d ∈ deliveries h, d.1.session.mailbox ≠ (account "second").mailbox →
        d.1.msg = .imap (mail 5))
    (by decide) fun _ _ hr =>
      mailbox_isolated hr (account "second") (mail 6) .plaintext
  refine ⟨h, p, hr, hactions, hσ, hisolated ?_⟩
  rintro ⟨op, m, t, hm, -, hu, hne⟩
  cases hm.msg.symm.trans (hd _ hm.mem_deliveries hne)
  exact absurd hu (by decide)

/-- The isolation fails: after a switch of accounts a search answers with the text rendered for
the message with the same uid of the account before. -/
theorem not_mailbox_isolated :
    ¬ ∀ (σ₀ : Option MCOIMAPSession) (h : List (Event String)) (p : Process String),
      (storeSystem String).Run (.init .empty σ₀) h p → MailboxIsolated h p := by
  intro hall
  obtain ⟨h, p, hr, hP⟩ := (storeSystem String).exists_run_of_exec (fun _ _ => True)
    (.init .empty (some (account "first")))
    [.searchPlaintextOfMsg .insertion (some (mail 5)), .complete 0 (some "first"),
      .setImapSession (account "second")]
    (fun h p => p.store.imapSession = some (account "second") ∧
      (p.store.searchTextOfMsg .insertion (mail 5) .plaintext).returned = some "first" ∧
      ∀ d ∈ deliveries h, d.1.session.mailbox ≠ (account "second").mailbox)
    (by decide)
  obtain ⟨hσ, ht, hd⟩ := hP
  obtain ⟨op, m, hm, hop⟩ := hall _ h p hr _ hσ (mail 5) .plaintext .insertion "first" ht
  exact hd _ hm.mem_deliveries hop

end SecMail
