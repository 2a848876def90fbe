import SecMail.Store.Index
import SecMail.Store.Provenance

/-!
# Which texts reach the database

A completion puts its text into its object and saves the shared context.  The save commits
everything or, if some object still lacks a required attribute, nothing, and nobody looks at its
result.  So a delivered text reaches the database with the first save that finds every object
complete.

* `rendered_durable` : if no completion changes a text that its row has already, and the last
  completion in flight leaves every object complete unless it fails with nothing to save, then
  all texts delivered are in the database whenever nothing is in flight;
* `Process.durably_of_succeeds` : runs without failures are of this kind;
* `not_rendered_durable` : one message without a subject is enough to lose the text of another.
-/

namespace SecMail

variable {τ : Type*}

namespace NSManagedObjectContext

/-- Some object holds the text `t` of a kind, under the key `k`. -/
def Holding (c : NSManagedObjectContext τ) : Kind → NSString → τ → Prop
  | .plaintext, k, t =>
    ∃ i o, c.summaries.object i = some o ∧ o.szUid = k ∧ o.szPlaintext = some t
  | .html, k, t => ∃ i o, c.htmls.object i = some o ∧ o.szUid = k ∧ o.szHtml = some t

/-- The database holds the text `t` of a kind, under the key `k`. -/
def Committed (c : NSManagedObjectContext τ) : Kind → NSString → τ → Prop
  | .plaintext, k, t => ∃ r ∈ c.summaries.rows, r.szUid = k ∧ r.szPlaintext = t
  | .html, k, t => ∃ r ∈ c.htmls.rows, r.szUid = k ∧ r.szHtml = t

/-- Every object with a text is in the database with it. -/
def TextsSaved (c : NSManagedObjectContext τ) : Prop :=
  (∀ e ∈ c.summaries, ∀ t ∈ e.obj.szPlaintext,
    ∃ r ∈ e.saved, r.szUid = e.obj.szUid ∧ r.szPlaintext = t) ∧
  ∀ e ∈ c.htmls, ∀ t ∈ e.obj.szHtml, ∃ r ∈ e.saved, r.szUid = e.obj.szUid ∧ r.szHtml = t

instance [DecidableEq τ] (c : NSManagedObjectContext τ) : Decidable c.TextsSaved :=
  inferInstanceAs (Decidable ((∀ e ∈ c.summaries, ∀ t ∈ e.obj.szPlaintext,
    ∃ r ∈ e.saved, r.szUid = e.obj.szUid ∧ r.szPlaintext = t) ∧
    ∀ e ∈ c.htmls, ∀ t ∈ e.obj.szHtml, ∃ r ∈ e.saved, r.szUid = e.obj.szUid ∧ r.szHtml = t))

variable {c : NSManagedObjectContext τ} {kind : Kind} {k : NSString} {t : τ}

theorem TextsSaved.committed (hc : c.TextsSaved) (h : c.Holding kind k t) :
    c.Committed kind k t := by
  cases kind with
  | plaintext =>
    obtain ⟨i, o, ho, rfl, ht⟩ := h
    obtain ⟨e, he, rfl⟩ := Option.map_eq_some_iff.1 ho
    obtain ⟨r, hr, hk⟩ := hc.1 e (List.mem_of_getElem? he) t ht
    exact ⟨r, Table.mem_rows.2 ⟨i, e, he, hr⟩, hk⟩
  | html =>
    obtain ⟨i, o, ho, rfl, ht⟩ := h
    obtain ⟨e, he, rfl⟩ := Option.map_eq_some_iff.1 ho
    obtain ⟨r, hr, hk⟩ := hc.2 e (List.mem_of_getElem? he) t ht
    exact ⟨r, Table.mem_rows.2 ⟨i, e, he, hr⟩, hk⟩

theorem Holding.save (h : c.Holding kind k t) : c.save.Holding kind k t := by
  unfold NSManagedObjectContext.save
  split_ifs with hv
  · cases kind with
    | plaintext =>
      obtain ⟨i, o, ho, hk⟩ := h
      exact ⟨i, o, Entity.object_commit.trans ho, hk⟩
    | html =>
      obtain ⟨i, o, ho, hk⟩ := h
      exact ⟨i, o, Entity.object_commit.trans ho, hk⟩
  · exact h

/-- A save that finds every object complete commits every text. -/
theorem Holding.committed (h : c.Holding kind k t) (hv : c.Valid) : c.save.Committed kind k t := by
  rw [NSManagedObjectContext.save, if_pos hv]
  cases kind with
  | plaintext =>
    obtain ⟨i, o, ho, rfl, ht⟩ := h
    obtain ⟨r, hr⟩ := Entity.valid_iff.1 hv.1 i o ho
    have hload := SUMMARY.validate_eq_some.1 hr
    subst hload
    exact ⟨r, Entity.mem_rows_commit.2 ⟨i, ho⟩, rfl, Option.some.inj ht⟩
  | html =>
    obtain ⟨i, o, ho, rfl, ht⟩ := h
    obtain ⟨r, hr⟩ := Entity.valid_iff.1 hv.2.1 i o ho
    have hload := HTML.validate_eq_some.1 hr
    subst hload
    exact ⟨r, Entity.mem_rows_commit.2 ⟨i, ho⟩, rfl, Option.some.inj ht⟩

/-- A save loses no text from the database that memory still holds. -/
theorem Committed.save (h : c.Committed kind k t) (hm : c.Holding kind k t) :
    c.save.Committed kind k t := by
  by_cases hv : c.Valid
  · exact hm.committed hv
  · rwa [NSManagedObjectContext.save, if_neg hv]

theorem Committed.restart (h : c.Committed kind k t) : c.restart.Committed kind k t := by
  cases kind with
  | plaintext => simpa [Committed, NSManagedObjectContext.restart] using h
  | html => simpa [Committed, NSManagedObjectContext.restart] using h

/-- What is in the database is there after a restart. -/
theorem Committed.holding_restart (h : c.Committed kind k t) : c.restart.Holding kind k t := by
  cases kind with
  | plaintext =>
    obtain ⟨r, hr, hk, rfl⟩ := h
    exact Entity.exists_object_reload.2 ⟨r, hr, hk, rfl⟩
  | html =>
    obtain ⟨r, hr, hk, rfl⟩ := h
    exact Entity.exists_object_reload.2 ⟨r, hr, hk, rfl⟩

end NSManagedObjectContext

/-! ### Searches -/

namespace ADZStoreMsgToCoreData

variable {s : ADZStoreMsgToCoreData τ} {order : FetchOrders} {r : Reply τ}
  {kind : Kind} {k : NSString} {t : τ}

/-- A search changes no text in memory and nothing in the database. -/
theorem PlaintextSearch.texts {m : MCOIMAPMessage} (hr : PlaintextSearch s order m r) :
    (s.managedObjectContext.Holding kind k t → r.store.managedObjectContext.Holding kind k t) ∧
    (s.managedObjectContext.Committed kind k t →
      r.store.managedObjectContext.Committed kind k t) := by
  have hu : ∀ s' : ADZStoreMsgToCoreData τ, s'.managedObjectContext.summaries =
      s.managedObjectContext.summaries → s'.managedObjectContext.htmls =
      s.managedObjectContext.htmls →
      (s.managedObjectContext.Holding kind k t → s'.managedObjectContext.Holding kind k t) ∧
      (s.managedObjectContext.Committed kind k t → s'.managedObjectContext.Committed kind k t) := by
    intro s' hs hh
    cases kind with
    | plaintext =>
      simp only [NSManagedObjectContext.Holding, NSManagedObjectContext.Committed, hs]
      exact ⟨id, id⟩
    | html =>
      simp only [NSManagedObjectContext.Holding, NSManagedObjectContext.Committed, hh]
      exact ⟨id, id⟩
  cases hr with
  | cached => exact hu _ (by simp) (by simp)
  | dropped => exact hu _ (by simp [removeCached]) (by simp [removeCached])
  | missing => exact hu _ (by simp) (by simp)
  | retried => exact hu _ (by simp) (by simp)
  | stored => exact hu _ (by simp [setCached]) (by simp [setCached])
  | inserted =>
    obtain ⟨hold, hcom⟩ := hu (s.dicCached.uids order) (by simp) (by simp)
    refine ⟨fun h => ?_, fun h => ?_⟩
    · have h := hold h
      cases kind with
      | plaintext =>
        obtain ⟨i, o, ho, hk⟩ := h
        exact ⟨i, o, Table.object_insert_of_some ho, hk⟩
      | html => exact h
    · have h := hcom h
      cases kind with
      | plaintext =>
        simpa [NSManagedObjectContext.Committed, insertSummary] using h
      | html => exact h

theorem HtmlSearch.texts {msg : Msg τ} (hr : HtmlSearch s msg r) :
    (s.managedObjectContext.Holding kind k t → r.store.managedObjectContext.Holding kind k t) ∧
    (s.managedObjectContext.Committed kind k t →
      r.store.managedObjectContext.Committed kind k t) := by
  cases hr with
  | cached => exact ⟨id, id⟩
  | stored => simp
  | inserted =>
    refine ⟨fun h => ?_, fun h => ?_⟩
    · cases kind with
      | plaintext => exact h
      | html =>
        obtain ⟨i, o, ho, hk⟩ := h
        exact ⟨i, o, Table.object_insert_of_some ho, hk⟩
    · cases kind with
      | plaintext => exact h
      | html => simpa [NSManagedObjectContext.Committed, insertHtml] using h

end ADZStoreMsgToCoreData

/-! ### Completions -/

namespace RenderingOp

/-- The context with the result of the operation put in, before it is saved. -/
def fill (s : ADZStoreMsgToCoreData τ) (result : Option τ) : RenderingOp τ → NSManagedObjectContext τ
  | plainTextBody m _ i => s.fillPlaintext i m.szUid result
  | html _ _ i => s.fillHtml i result

/-- The text that the object of the operation has already. -/
def text (c : NSManagedObjectContext τ) : RenderingOp τ → Option τ
  | plainTextBody _ _ i => (c.summaries.object i).bind ADZMessageSummary.szPlaintext
  | html _ _ i => (c.htmls.object i).bind ADZHtml.szHtml

variable {s s' : ADZStoreMsgToCoreData τ} {op : RenderingOp τ} {result : Option τ}
  {kind : Kind} {k : NSString} {t : τ}

theorem complete_managedObjectContext (hl : op.Linked s.managedObjectContext)
    (hc : op.complete s result = some s') : s'.managedObjectContext = (op.fill s result).save := by
  cases op with
  | plainTextBody m σ i =>
    obtain ⟨o, ho, hk⟩ := hl
    cases hc
    rw [ADZStoreMsgToCoreData.plaintextCompleted_eq ho, hk]
    rfl
  | html msg σ i =>
    obtain ⟨o, ho, -⟩ := hl
    cases msg with
    | imap m =>
      cases hc
      rw [ADZStoreMsgToCoreData.htmlCompleted_eq ho,
        ADZStoreMsgToCoreData.setCachedHtml_managedObjectContext]
      rfl
    | summary d => cases hc

/-- Before the save nothing changes in the database. -/
theorem committed_fill : (op.fill s result).Committed kind k t ↔
    s.managedObjectContext.Committed kind k t := by
  cases op with
  | plainTextBody m σ i => cases kind <;> simp [NSManagedObjectContext.Committed, fill]
  | html msg σ i => cases kind <;> simp [NSManagedObjectContext.Committed, fill]

/-- The delivered text is in memory. -/
theorem holding_fill (hl : op.Linked s.managedObjectContext) :
    (op.fill s (some t)).Holding op.kind op.msg.szUid t := by
  cases op with
  | plainTextBody m σ i =>
    obtain ⟨o, ho, hk⟩ := hl
    exact ⟨i, { o with szPlaintext := some t }, by simp [fill, ho], hk, rfl⟩
  | html msg σ i =>
    obtain ⟨o, ho, hk⟩ := hl
    exact ⟨i, { o with szHtml := some t }, by simp [fill, ho], hk, rfl⟩

/-- The other texts stay, and so does the text of the operation's object if the result is equal
to it. -/
theorem holding_fill_of_keeps (hkeep : ∀ t ∈ op.text s.managedObjectContext, result = some t)
    (h : s.managedObjectContext.Holding kind k t) : (op.fill s result).Holding kind k t := by
  cases op with
  | plainTextBody m σ i =>
    cases kind with
    | html => exact h
    | plaintext =>
      obtain ⟨j, o, ho, hk, ht⟩ := h
      by_cases hij : i = j
      · subst hij
        have hresult : result = some t := hkeep t (by simp [text, ho, ht])
        exact ⟨i, { o with szPlaintext := result }, by simp [fill, ho], hk, hresult⟩
      · refine ⟨j, o, ?_, hk, ht⟩
        rw [fill, ADZStoreMsgToCoreData.fillPlaintext_summaries, Table.object_update_of_ne hij, ho]
  | html msg σ i =>
    cases kind with
    | plaintext => exact h
    | html =>
      obtain ⟨j, o, ho, hk, ht⟩ := h
      by_cases hij : i = j
      · subst hij
        have hresult : result = some t := hkeep t (by simp [text, ho, ht])
        exact ⟨i, { o with szHtml := result }, by simp [fill, ho], hk, hresult⟩
      · refine ⟨j, o, ?_, hk, ht⟩
        rw [fill, ADZStoreMsgToCoreData.fillHtml_htmls, Table.object_update_of_ne hij, ho]

end RenderingOp

/-! ### Runs -/

namespace Process

/-- The condition on a step: a completion does not change a text that its object has already; the
last completion in flight leaves every object complete, or fails with every text saved; the app
is not restarted while an operation is in flight. -/
def Durably (p : Process τ) : Action τ → Prop
  | .complete k result => ∀ op ∈ p.inFlight[k]?,
      (∀ t ∈ op.text p.store.managedObjectContext, result = some t) ∧
      (p.inFlight.length = 1 → (op.fill p.store result).Valid ∨
        (result = none ∧ p.store.managedObjectContext.TextsSaved))
  | .restart => p.inFlight = []
  | _ => True

instance [DecidableEq τ] (p : Process τ) : (a : Action τ) → Decidable (p.Durably a)
  | .complete k result => inferInstanceAs (Decidable (∀ op ∈ p.inFlight[k]?,
      (∀ t ∈ op.text p.store.managedObjectContext, result = some t) ∧
      (p.inFlight.length = 1 → (op.fill p.store result).Valid ∨
        (result = none ∧ p.store.managedObjectContext.TextsSaved))))
  | .restart => inferInstanceAs (Decidable (p.inFlight = []))
  | .searchPlaintextOfMsg .. => isTrue trivial
  | .searchHtmlOfMsg .. => isTrue trivial
  | .dicCached => isTrue trivial
  | .setImapSession _ => isTrue trivial
  | .setDelegate _ => isTrue trivial

/-- The texts delivered in `h` are in memory, and in the database when nothing is in flight. -/
structure Kept (h : List (Event τ)) (p : Process τ) : Prop where
  linked : p.Linked
  holding : ∀ op t, Delivered h op t →
    p.store.managedObjectContext.Holding op.kind op.msg.szUid t
  committed : p.inFlight = [] → ∀ op t, Delivered h op t →
    p.store.managedObjectContext.Committed op.kind op.msg.szUid t

variable {p p' : Process τ} {a : Action τ} {o : Observation τ} {h : List (Event τ)}

theorem delivered_snoc {op : RenderingOp τ} {t : τ} (hd : Delivered (h ++ [(a, o)]) op t) :
    Delivered h op t ∨ ∃ k d, a = .complete k (some t) ∧ o = .completed op d := by
  obtain ⟨k, d, hm⟩ := hd
  rcases List.mem_append.1 hm with hm | hm
  · exact .inl ⟨k, d, hm⟩
  · simp only [List.mem_singleton, Prod.mk.injEq] at hm
    exact .inr ⟨k, d, hm.1.symm, hm.2.symm⟩

/-- A step that delivers nothing and changes no text. -/
theorem Kept.of_texts (hp : p.Kept h) (hl : p'.Linked)
    (ha : ∀ k t op d, a = .complete k (some t) → o ≠ .completed op d)
    (hflight : p'.inFlight = [] → p.inFlight = [])
    (htexts : ∀ kind k t,
      (p.store.managedObjectContext.Holding kind k t →
        p'.store.managedObjectContext.Holding kind k t) ∧
      (p.store.managedObjectContext.Committed kind k t →
        p'.store.managedObjectContext.Committed kind k t)) : p'.Kept (h ++ [(a, o)]) := by
  have hold : ∀ op t, Delivered (h ++ [(a, o)]) op t → Delivered h op t := by
    intro op t hd
    rcases delivered_snoc hd with hd | ⟨k, d, rfl, rfl⟩
    · exact hd
    · exact absurd rfl (ha k t op d rfl)
  exact ⟨hl, fun op t hd => (htexts _ _ _).1 (hp.holding op t (hold op t hd)),
    fun hf op t hd => (htexts _ _ _).2 (hp.committed (hflight hf) op t (hold op t hd))⟩

/-- A completion that keeps the texts, and leaves every object complete if it is the last. -/
theorem Kept.complete (hp : p.Kept h) {k : ℕ} {op : RenderingOp τ} {result : Option τ}
    {d : Option ℕ} {store : ADZStoreMsgToCoreData τ} (hk : p.inFlight[k]? = some op)
    (hc : op.complete p.store result = some store) (hC : p.Durably (.complete k result))
    (hl : (p.finish k store).Linked) :
    (p.finish k store).Kept (h ++ [(.complete k result, .completed op d)]) := by
  obtain ⟨hkeep, hlast⟩ := hC op hk
  have hop : op.Linked p.store.managedObjectContext := hp.linked op (List.mem_of_getElem? hk)
  have hctx := RenderingOp.complete_managedObjectContext hop hc
  have hfill : ∀ op' t,
      Delivered (h ++ [(.complete k result, .completed op d)]) op' t →
      (op.fill p.store result).Holding op'.kind op'.msg.szUid t := by
    intro op' t hd
    rcases delivered_snoc hd with hd | ⟨k', d', ha, ho⟩
    · exact RenderingOp.holding_fill_of_keeps hkeep (hp.holding op' t hd)
    · cases ha
      cases ho
      exact RenderingOp.holding_fill hop
  refine ⟨hl, fun op' t hd => ?_, fun hf op' t hd => ?_⟩
  · show store.managedObjectContext.Holding _ _ _
    rw [hctx]
    exact (hfill op' t hd).save
  · show store.managedObjectContext.Committed _ _ _
    -- nothing is left in flight, so this completion was the last one
    have hone : p.inFlight.length = 1 := by
      have hlen := congrArg List.length hf
      have hlt := (List.getElem?_eq_some_iff.1 hk).1
      simp only [finish, List.length_eraseIdx_of_lt hlt, List.length_nil] at hlen
      omega
    rw [hctx]
    rcases hlast hone with hv | ⟨rfl, hsaved⟩
    · exact (hfill op' t hd).committed hv
    · rcases delivered_snoc hd with hd' | ⟨k', d', ha, -⟩
      · have hcom := hsaved.committed (hp.holding op' t hd')
        exact (RenderingOp.committed_fill.2 hcom).save (hfill op' t hd)
      · cases ha

theorem Kept.step (hp : p.Kept h) (hC : p.Durably a) (hs : StoreStep p a p' o) :
    p'.Kept (h ++ [(a, o)]) := by
  have hl := hp.linked.step hs
  cases hs with
  | plaintextOfNil => exact hp.of_texts hl nofun id fun _ _ _ => ⟨id, id⟩
  | htmlOfNil => exact hp.of_texts hl nofun id fun _ _ _ => ⟨id, id⟩
  | searchPlaintextOfMsg hr =>
    exact hp.of_texts hl nofun (fun hf => (List.append_eq_nil_iff.1 hf).1) fun _ _ _ => hr.texts
  | searchHtmlOfMsg hr =>
    exact hp.of_texts hl nofun (fun hf => (List.append_eq_nil_iff.1 hf).1) fun _ _ _ => hr.texts
  | plaintextCompleted hk t => exact hp.complete hk rfl hC hl
  | htmlCompleted hk t => exact hp.complete hk rfl hC hl
  | dicCached => exact hp.of_texts hl nofun id fun _ _ _ => by simp
  | setImapSession σ => exact hp.of_texts hl nofun id fun _ _ _ => ⟨id, id⟩
  | setDelegate d => exact hp.of_texts hl nofun id fun _ _ _ => ⟨id, id⟩
  | restart =>
    have hcom := hp.committed hC
    have hold : ∀ op t, Delivered (h ++ [(.restart, .silent)]) op t → Delivered h op t := by
      intro op t hd
      rcases delivered_snoc hd with hd | ⟨k, d, ha, -⟩
      · exact hd
      · cases ha
    exact ⟨hl, fun op t hd => (hcom op t (hold op t hd)).holding_restart,
      fun _ op t hd => (hcom op t (hold op t hd)).restart⟩

theorem kept_of_run {p₀ : Process τ} (hr : (storeSystem τ).RunWhere Durably p₀ h p)
    (h₀ : p₀.inFlight = []) : p.Kept h := by
  have hinit : p₀.Kept [] := ⟨by simp [Linked, h₀], by simp [Delivered], by simp [Delivered]⟩
  exact hr.invariant hinit fun h p a o p' hp hC hs => hp.step hC (storeStep_of_next hs)

end Process

/-- Whenever nothing is in flight, every text rendered so far is in the database. -/
def RenderedDurable (h : List (Event τ)) (p : Process τ) : Prop :=
  p.inFlight = [] → ∀ op m t, Rendered h op m t →
    p.store.managedObjectContext.Committed op.kind m.szUid t

/-- **Rendered mail becomes durable** in every run whose completions change no text that their
object has already, and whose last completions in flight leave every object complete or fail with
every text saved. -/
theorem rendered_durable {p : Process τ} {h : List (Event τ)} {σ₀ : Option MCOIMAPSession}
    (hr : (storeSystem τ).RunWhere Process.Durably (.init .empty σ₀) h p) :
    RenderedDurable h p := by
  intro hf op m t hm
  obtain ⟨hmsg, h₁, k, d, h₂, -, hh⟩ := hm
  have hd : Delivered h op t := ⟨k, d, by simp [hh]⟩
  have hcom := (Process.kept_of_run hr rfl).committed hf op t hd
  rwa [hmsg] at hcom

theorem rendered_durable_failure_hello :
    ∃ h p, (storeSystem String).Run (.init .empty (some (account "first"))) h p ∧
      h.map Prod.fst = [.searchPlaintextOfMsg .insertion (some (mail 5)), .complete 0 none,
        .searchPlaintextOfMsg .insertion (some (mail 5)),
        .searchPlaintextOfMsg .insertion (some (mail 5)), .complete 0 (some "hello")] ∧
      (p.store.searchPlaintextOfMsg .insertion (some (mail 5))).returned = some "hello" ∧
      RenderedDurable h p :=
  (storeSystem String).exists_run_of_actions Process.Durably _ _ (by decide)
    fun _ _ hr => rendered_durable hr

/-- The calls of the searches and the completions of the operations they start. -/
def Action.IsCall : Action τ → Prop
  | .searchPlaintextOfMsg .. => True
  | .searchHtmlOfMsg .. => True
  | .complete .. => True
  | _ => False

instance : (a : Action τ) → Decidable a.IsCall
  | .searchPlaintextOfMsg .. => isTrue trivial
  | .searchHtmlOfMsg .. => isTrue trivial
  | .complete .. => isTrue trivial
  | .dicCached => isFalse id
  | .setImapSession _ => isFalse id
  | .setDelegate _ => isFalse id
  | .restart => isFalse id

/-- A message without a subject keeps the text of another message out of the database. -/
theorem not_rendered_durable :
    ¬ ∀ (σ₀ : MCOIMAPSession) (h : List (Event String)) (p : Process String),
      (storeSystem String).RunWhere (fun _ a => a.IsCall) (.init .empty (some σ₀)) h p →
      RenderedDurable h p := by
  intro hall
  obtain ⟨h, p, hr, hf, hd, hrows⟩ := (storeSystem String).exists_run_of_exec
    (fun _ a => a.IsCall) (.init .empty (some (account "first")))
    [.searchPlaintextOfMsg .insertion (some ⟨4, ⟨none, 0⟩⟩), .complete 0 (some "no subject"),
      .searchPlaintextOfMsg .insertion (some (mail 5)), .complete 0 (some "hello")]
    (fun h p => p.inFlight = [] ∧
      (.plainTextBody (mail 5) (account "first") 1, "hello") ∈ deliveries h ∧
      p.store.managedObjectContext.summaries.rows.length = 0)
    (by decide)
  obtain ⟨m, hm⟩ := Process.rendered_of_run hr rfl (delivered_of_mem_deliveries hd)
  obtain ⟨r, hmem, -⟩ := hall _ h p hr hf _ m "hello" hm
  rw [List.eq_nil_of_length_eq_zero hrows] at hmem
  cases hmem

/-! ### Runs without failures -/

namespace NSManagedObjectContext

variable {c : NSManagedObjectContext τ} {i : ℕ}

@[simp] theorem save_summaries_object : c.save.summaries.object i = c.summaries.object i := by
  unfold save; split_ifs <;> simp

@[simp] theorem save_htmls_object : c.save.htmls.object i = c.htmls.object i := by
  unfold save; split_ifs <;> simp

@[simp] theorem save_uids_object : c.save.uids.object i = c.uids.object i := by
  unfold save; split_ifs <;> simp

end NSManagedObjectContext

namespace ADZStoreMsgToCoreData

variable {s : ADZStoreMsgToCoreData τ} {order : FetchOrders} {k : NSString}

/-- The getter inserts at most the object it returns. -/
theorem uids_object {j : ℕ} {u : ADZAllUids}
    (h : (s.uids order).managedObjectContext.uids.object j = some u) :
    s.managedObjectContext.uids.object j = some u ∨
      ((s.uids order)._uids = some j ∧ (s.uids order).szUids = none) := by
  unfold uids at h ⊢
  split at h
  · exact .inl h
  · split at h
    · rcases Table.object_insert_eq_some.1 h with h | ⟨rfl, -⟩
      · exact .inl h
      · right
        simp only [szUids, Option.bind_some, Table.object_insert_self, and_self]
    · exact .inl h

theorem uids_mono {j : ℕ} (hj : s._uids = some j) : (s.uids order)._uids = some j := by
  simp [uids, hj]

end ADZStoreMsgToCoreData

namespace Process

/-- The condition on a step of a run without failures: sessions and subjects are there, renderings
succeed, and a text is not changed. -/
def Succeeds (p : Process τ) : Action τ → Prop
  | .searchPlaintextOfMsg _ m => p.store.imapSession.isSome = true ∧
      ∀ m' ∈ m, m'.header.subject.isSome = true
  | .searchHtmlOfMsg .. => p.store.imapSession.isSome = true
  | .complete k result => result.isSome = true ∧ ∀ op ∈ p.inFlight[k]?,
      ∀ t ∈ op.text p.store.managedObjectContext, result = some t
  | .restart => p.inFlight = []
  | _ => True

/-- Every object is complete, but for what an operation in flight is going to fill in. -/
structure Filling (p : Process τ) : Prop where
  summary : ∀ i o, p.store.managedObjectContext.summaries.object i = some o →
    o.szSubject.isSome = true ∧ o.date.isSome = true ∧
      (o.szPlaintext = none → ∃ m σ, .plainTextBody m σ i ∈ p.inFlight)
  html : ∀ i o, p.store.managedObjectContext.htmls.object i = some o → o.szHtml = none →
    ∃ msg σ, .html msg σ i ∈ p.inFlight
  uids : ∀ j u, p.store.managedObjectContext.uids.object j = some u → u.szUids = none →
    p.store._uids = some j ∧ ∃ m σ i, .plainTextBody m σ i ∈ p.inFlight

variable {p p' : Process τ} {a : Action τ} {o : Observation τ} {op : RenderingOp τ} {k : ℕ}

theorem filling_init {σ : Option MCOIMAPSession} : (init (τ := τ) .empty σ).Filling := by
  constructor <;> simp [init, ADZStoreMsgToCoreData.init, NSManagedObjectContext.empty, Table.object]

/-- When the last operation succeeds, every object is complete. -/
theorem Filling.valid (hp : p.Filling) (hi : p.Indexed) (hk : p.inFlight[k]? = some op)
    (hone : p.inFlight.length = 1) (t : τ) : (op.fill p.store (some t)).Valid := by
  have hflight : ∀ op' ∈ p.inFlight, op' = op := by
    obtain ⟨op₁, hop₁⟩ := List.length_eq_one_iff.1 hone
    have := List.mem_of_getElem? hk
    simp_all
  cases op with
  | plainTextBody m σ i =>
    obtain ⟨j, hj⟩ := hi.inFlight _ (List.mem_of_getElem? hk) rfl
    refine ⟨Entity.valid_iff.2 fun i' o' ho' => ?_, Entity.valid_iff.2 fun i' o' ho' => ?_,
      Entity.valid_iff.2 fun j' u' hu' => ?_⟩
    · rw [RenderingOp.fill, ADZStoreMsgToCoreData.fillPlaintext_summaries] at ho'
      obtain ⟨o, ho, rfl⟩ := Table.object_update_eq_some ho'
      obtain ⟨hs, hd, ht⟩ := hp.summary i' o ho
      rw [SUMMARY_validate_isSome]
      split_ifs with hii
      · exact ⟨hs, hd, rfl⟩
      · refine ⟨hs, hd, Option.isSome_iff_ne_none.2 fun hnone => ?_⟩
        obtain ⟨m', σ', hop⟩ := ht hnone
        cases hflight _ hop
        exact hii rfl
    · rw [HTML_validate_isSome, Option.isSome_iff_ne_none]
      intro hnone
      obtain ⟨msg, σ', hop⟩ := hp.html i' o' ho' hnone
      cases hflight _ hop
    · rw [RenderingOp.fill, ADZStoreMsgToCoreData.fillPlaintext] at hu'
      simp only [hj] at hu'
      obtain ⟨u, hu, rfl⟩ := Table.object_update_eq_some hu'
      rw [UIDS_validate_isSome]
      split_ifs with hjj
      · rfl
      · rw [Option.isSome_iff_ne_none]
        intro hnone
        exact hjj (Option.some.inj (hj.symm.trans (hp.uids j' u hu hnone).1))
  | html msg σ i =>
    refine ⟨Entity.valid_iff.2 fun i' o' ho' => ?_, Entity.valid_iff.2 fun i' o' ho' => ?_,
      Entity.valid_iff.2 fun j' u' hu' => ?_⟩
    · obtain ⟨hs, hd, ht⟩ := hp.summary i' o' ho'
      rw [SUMMARY_validate_isSome]
      refine ⟨hs, hd, Option.isSome_iff_ne_none.2 fun hnone => ?_⟩
      obtain ⟨m', σ', hop⟩ := ht hnone
      cases hflight _ hop
    · rw [RenderingOp.fill, ADZStoreMsgToCoreData.fillHtml_htmls] at ho'
      obtain ⟨o, ho, rfl⟩ := Table.object_update_eq_some ho'
      rw [HTML_validate_isSome]
      split_ifs with hii
      · rfl
      · rw [Option.isSome_iff_ne_none]
        intro hnone
        obtain ⟨msg', σ', hop⟩ := hp.html i' o ho hnone
        cases hflight _ hop
        exact hii rfl
    · rw [UIDS_validate_isSome, Option.isSome_iff_ne_none]
      intro hnone
      obtain ⟨-, m', σ', i', hop⟩ := hp.uids j' u' hu' hnone
      cases hflight _ hop

/-- What is in flight stays in flight, except the operation that completes. -/
theorem mem_finish {op' : RenderingOp τ} {store : ADZStoreMsgToCoreData τ}
    (hk : p.inFlight[k]? = some op) (hop : op' ∈ p.inFlight) (hne : op' ≠ op) :
    op' ∈ (p.finish k store).inFlight := by
  obtain ⟨i, hi⟩ := List.mem_iff_getElem?.1 hop
  refine List.mem_eraseIdx_iff_getElem?.2 ⟨i, ?_, hi⟩
  rintro rfl
  exact hne (Option.some.inj (hi.symm.trans hk))

section Mono

variable {l : List (RenderingOp τ)}

theorem Filling.summary_mono (hp : p.Filling) (hl : p.inFlight ⊆ l) {i : ℕ}
    {o : ADZMessageSummary τ} (ho : p.store.managedObjectContext.summaries.object i = some o) :
    o.szSubject.isSome = true ∧ o.date.isSome = true ∧
      (o.szPlaintext = none → ∃ m σ, .plainTextBody m σ i ∈ l) := by
  obtain ⟨hs, hd, ht⟩ := hp.summary i o ho
  refine ⟨hs, hd, fun hnone => ?_⟩
  obtain ⟨m, σ, hop⟩ := ht hnone
  exact ⟨m, σ, hl hop⟩

theorem Filling.html_mono (hp : p.Filling) (hl : p.inFlight ⊆ l) {i : ℕ} {o : ADZHtml τ}
    (ho : p.store.managedObjectContext.htmls.object i = some o) (hnone : o.szHtml = none) :
    ∃ msg σ, .html msg σ i ∈ l := by
  obtain ⟨msg, σ, hop⟩ := hp.html i o ho hnone
  exact ⟨msg, σ, hl hop⟩

theorem Filling.uids_mono (hp : p.Filling) (hl : p.inFlight ⊆ l) {j : ℕ} {u : ADZAllUids}
    (hu : p.store.managedObjectContext.uids.object j = some u) (hnone : u.szUids = none) :
    p.store._uids = some j ∧ ∃ m σ i, .plainTextBody m σ i ∈ l := by
  obtain ⟨hj, m, σ, i, hop⟩ := hp.uids j u hu hnone
  exact ⟨hj, m, σ, i, hl hop⟩

end Mono

/-- What is in flight stays so when a search starts another operation. -/
theorem inFlight_reply (r : Reply τ) : p.inFlight ⊆ (p.reply r).1.inFlight :=
  List.subset_append_left _ _

theorem Filling.searchPlaintextOfMsg {order : FetchOrders} {m : MCOIMAPMessage} {r : Reply τ}
    (hp : p.Filling) (hr : p.store.PlaintextSearch order m r)
    (hC : p.Succeeds (.searchPlaintextOfMsg order (some m))) : (p.reply r).1.Filling := by
  obtain ⟨hσ, hsubject⟩ := hC
  obtain ⟨σ, hσ⟩ := Option.isSome_iff_exists.1 hσ
  have hmono := inFlight_reply (p := p) r
  have hhtml : ∀ i o, (p.reply r).1.store.managedObjectContext.htmls.object i = some o →
      o.szHtml = none → ∃ msg σ, .html msg σ i ∈ (p.reply r).1.inFlight :=
    fun i o ho => hp.html_mono hmono (hr.htmls ▸ ho)
  -- a search that does not reach the index changes no object
  have hsame : r.store.managedObjectContext = p.store.managedObjectContext →
      r.store._uids = p.store._uids → (p.reply r).1.Filling := by
    intro hctx huids
    refine ⟨fun i o ho => hp.summary_mono hmono (hctx ▸ ho), hhtml, fun j u hu hnone => ?_⟩
    exact huids ▸ hp.uids_mono hmono (hctx ▸ hu) hnone
  -- a search that finds its uid in the index found the `UIDS` object
  have hfound : containsString (p.store.dicCached.uids order).szUids m.szUid = true →
      ∀ j u, (p.store.dicCached.uids order).managedObjectContext.uids.object j = some u →
      u.szUids = none → (p.store.dicCached.uids order)._uids = some j ∧
        ∃ m σ i, .plainTextBody m σ i ∈ (p.reply r).1.inFlight := by
    intro hl j u hu hnone
    rcases ADZStoreMsgToCoreData.uids_object hu with hu | ⟨-, hsz⟩
    · obtain ⟨hj, hop⟩ := hp.uids_mono hmono (by simpa using hu) hnone
      exact ⟨ADZStoreMsgToCoreData.uids_mono (by simpa using hj), hop⟩
    · simp [hsz, containsString] at hl
  cases hr with
  | cached => exact hsame (by simp) (by simp)
  | dropped =>
    exact hsame (by simp [ADZStoreMsgToCoreData.removeCached])
      (by simp [ADZStoreMsgToCoreData.removeCached])
  | missing hc hl =>
    exact ⟨fun i o ho => hp.summary_mono hmono (by simpa [reply] using ho), hhtml, hfound hl⟩
  | retried hc hl =>
    exact ⟨fun i o ho => hp.summary_mono hmono (by simpa [reply] using ho), hhtml, hfound hl⟩
  | stored hc hl =>
    refine ⟨fun i o ho => hp.summary_mono hmono ?_, hhtml, hfound hl⟩
    simpa [reply, ADZStoreMsgToCoreData.setCached] using ho
  | inserted hc hl =>
    have hop : .plainTextBody m σ p.store.managedObjectContext.summaries.length ∈
        p.inFlight ++ (p.store.setPlaintext m
          p.store.managedObjectContext.summaries.length).toList := by
      simp [ADZStoreMsgToCoreData.setPlaintext, hσ]
    refine ⟨fun i o ho => ?_, hhtml, fun j u hu hnone => ?_⟩
    · rcases Table.object_insert_eq_some.1 ho with ho | ⟨hi, rfl⟩
      · exact hp.summary_mono hmono (by simpa using ho)
      · refine ⟨hsubject m rfl, rfl, fun _ => ⟨m, σ, ?_⟩⟩
        rw [hi, ADZStoreMsgToCoreData.uids_summaries,
          ADZStoreMsgToCoreData.dicCached_managedObjectContext]
        exact hop
    · refine ⟨?_, m, σ, _, hop⟩
      rcases ADZStoreMsgToCoreData.uids_object hu with hu | ⟨hj, -⟩
      · have hj := (hp.uids j u (by simpa using hu) hnone).1
        exact ADZStoreMsgToCoreData.uids_mono (by simpa using hj)
      · exact hj

theorem Filling.searchHtmlOfMsg {msg : Msg τ} {r : Reply τ} (hp : p.Filling)
    (hr : p.store.HtmlSearch msg r) (hσ : p.store.imapSession.isSome = true) :
    (p.reply r).1.Filling := by
  obtain ⟨σ, hσ⟩ := Option.isSome_iff_exists.1 hσ
  have hmono := inFlight_reply (p := p) r
  have hsame : r.store.managedObjectContext = p.store.managedObjectContext →
      r.store._uids = p.store._uids → (p.reply r).1.Filling := by
    intro hctx huids
    refine ⟨fun i o ho => hp.summary_mono hmono (hctx ▸ ho),
      fun i o ho => hp.html_mono hmono (hctx ▸ ho), fun j u hu hnone => ?_⟩
    exact huids ▸ hp.uids_mono hmono (hctx ▸ hu) hnone
  cases hr with
  | cached => exact hsame rfl rfl
  | stored => exact hsame (by simp) (by simp)
  | inserted =>
    refine ⟨fun i o => hp.summary_mono hmono, fun i o ho ht => ?_, fun j u => hp.uids_mono hmono⟩
    rcases Table.object_insert_eq_some.1 ho with ho | ⟨rfl, rfl⟩
    · exact hp.html_mono hmono ho ht
    · exact ⟨msg, σ, by simp [reply, ADZStoreMsgToCoreData.setHtmlFromServer, hσ]⟩

theorem Filling.complete {store : ADZStoreMsgToCoreData τ} {t : τ} (hp : p.Filling)
    (hi : p.Indexed) (hl : p.Linked) (hk : p.inFlight[k]? = some op)
    (hc : op.complete p.store (some t) = some store) (huids : store._uids = p.store._uids) :
    (p.finish k store).Filling := by
  have hctx := RenderingOp.complete_managedObjectContext (hl op (List.mem_of_getElem? hk)) hc
  cases op with
  | plainTextBody m σ i =>
    obtain ⟨j, hj⟩ := hi.inFlight _ (List.mem_of_getElem? hk) rfl
    refine ⟨fun i' o' ho' => ?_, fun i' o' ho' hnone => ?_, fun j' u' hu' hnone => ?_⟩
    · change store.managedObjectContext.summaries.object i' = some o' at ho'
      rw [hctx, NSManagedObjectContext.save_summaries_object, RenderingOp.fill,
        ADZStoreMsgToCoreData.fillPlaintext_summaries] at ho'
      obtain ⟨o, ho, rfl⟩ := Table.object_update_eq_some ho'
      obtain ⟨hs, hd, ht⟩ := hp.summary i' o ho
      split_ifs with hii
      · exact ⟨hs, hd, fun hnone => by simp at hnone⟩
      · refine ⟨hs, hd, fun hnone => ?_⟩
        obtain ⟨m', σ', hop⟩ := ht hnone
        exact ⟨m', σ', mem_finish hk hop fun heq => hii (by cases heq; rfl)⟩
    · change store.managedObjectContext.htmls.object i' = some o' at ho'
      rw [hctx, NSManagedObjectContext.save_htmls_object] at ho'
      obtain ⟨msg, σ', hop⟩ := hp.html i' o' ho' hnone
      exact ⟨msg, σ', mem_finish hk hop (by simp)⟩
    · change store.managedObjectContext.uids.object j' = some u' at hu'
      rw [hctx, NSManagedObjectContext.save_uids_object, RenderingOp.fill,
        ADZStoreMsgToCoreData.fillPlaintext] at hu'
      simp only [hj] at hu'
      obtain ⟨u, hu, rfl⟩ := Table.object_update_eq_some hu'
      split_ifs at hnone with hjj
      exact absurd (Option.some.inj (hj.symm.trans (hp.uids j' u hu hnone).1)) hjj
  | html msg σ i =>
    refine ⟨fun i' o' ho' => ?_, fun i' o' ho' hnone => ?_, fun j' u' hu' hnone => ?_⟩
    · change store.managedObjectContext.summaries.object i' = some o' at ho'
      rw [hctx, NSManagedObjectContext.save_summaries_object] at ho'
      obtain ⟨hs, hd, ht⟩ := hp.summary i' o' ho'
      refine ⟨hs, hd, fun hnone => ?_⟩
      obtain ⟨m', σ', hop⟩ := ht hnone
      exact ⟨m', σ', mem_finish hk hop (by simp)⟩
    · change store.managedObjectContext.htmls.object i' = some o' at ho'
      rw [hctx, NSManagedObjectContext.save_htmls_object, RenderingOp.fill,
        ADZStoreMsgToCoreData.fillHtml_htmls] at ho'
      obtain ⟨o, ho, rfl⟩ := Table.object_update_eq_some ho'
      split_ifs at hnone with hii
      obtain ⟨msg', σ', hop⟩ := hp.html i' o ho hnone
      exact ⟨msg', σ', mem_finish hk hop fun heq => hii (by cases heq; rfl)⟩
    · change store.managedObjectContext.uids.object j' = some u' at hu'
      rw [hctx, NSManagedObjectContext.save_uids_object] at hu'
      obtain ⟨hj, m', σ', i', hop⟩ := hp.uids j' u' hu' hnone
      exact ⟨huids.trans hj, m', σ', i', mem_finish hk hop (by simp)⟩

theorem filling_restart (c : NSManagedObjectContext τ) : (init c.restart none).Filling := by
  refine ⟨fun i o ho => ?_, fun i o ho hnone => ?_, fun j u hu hnone => ?_⟩
  · obtain ⟨r, -, rfl⟩ := Option.map_eq_some_iff.1 (Entity.object_reload.symm.trans ho)
    exact ⟨rfl, rfl, nofun⟩
  · obtain ⟨r, -, rfl⟩ := Option.map_eq_some_iff.1 (Entity.object_reload.symm.trans ho)
    cases hnone
  · obtain ⟨r, -, rfl⟩ := Option.map_eq_some_iff.1 (Entity.object_reload.symm.trans hu)
    cases hnone

theorem Filling.step (hp : p.Filling) (hi : p.Indexed) (hl : p.Linked) (hC : p.Succeeds a)
    (hs : StoreStep p a p' o) : p'.Filling := by
  cases hs with
  | plaintextOfNil => exact hp
  | htmlOfNil => exact hp
  | searchPlaintextOfMsg hr => exact hp.searchPlaintextOfMsg hr hC
  | searchHtmlOfMsg hr => exact hp.searchHtmlOfMsg hr hC
  | @plaintextCompleted k m σ i hk t =>
    obtain ⟨t, rfl⟩ := Option.isSome_iff_exists.1 hC.1
    refine hp.complete hi hl hk rfl ?_
    unfold ADZStoreMsgToCoreData.plaintextCompleted
    split <;> rfl
  | @htmlCompleted k m σ i hk t =>
    obtain ⟨t, rfl⟩ := Option.isSome_iff_exists.1 hC.1
    refine hp.complete hi hl hk rfl ?_
    unfold ADZStoreMsgToCoreData.htmlCompleted
    split <;> simp
  | dicCached => exact ⟨by simpa using hp.summary, by simpa using hp.html, by simpa using hp.uids⟩
  | setImapSession σ => exact ⟨hp.summary, hp.html, hp.uids⟩
  | setDelegate d => exact ⟨hp.summary, hp.html, hp.uids⟩
  | restart => exact filling_restart _

theorem indexed_of_succeeds {h : List (Event τ)} {σ₀ : Option MCOIMAPSession}
    (hr : (storeSystem τ).RunWhere Succeeds (.init .empty σ₀) h p) : p.Indexed :=
  indexed_of_run hr (indexed_init NSManagedObjectContext.indexed_empty)

/-- In a run without failures every object is complete or waited for. -/
theorem filling_of_run {h : List (Event τ)} {σ₀ : Option MCOIMAPSession}
    (hr : (storeSystem τ).RunWhere Succeeds (.init .empty σ₀) h p) : p.Filling := by
  induction hr with
  | nil => exact filling_init
  | snoc hr hC hs hp =>
    exact hp.step (indexed_of_succeeds hr) (linked_of_run hr rfl) hC (storeStep_of_next hs)

/-- A run without failures meets the condition of `rendered_durable`. -/
theorem durably_of_succeeds {h : List (Event τ)} {σ₀ : Option MCOIMAPSession}
    (hr : (storeSystem τ).RunWhere Succeeds (.init .empty σ₀) h p) :
    (storeSystem τ).RunWhere Durably (.init .empty σ₀) h p := by
  induction hr with
  | nil => exact .nil
  | @snoc h p p' a o hr hC hs ih =>
    refine ih.snoc ?_ hs
    cases a with
    | complete k result =>
      obtain ⟨hsome, hkeep⟩ := hC
      obtain ⟨t, rfl⟩ := Option.isSome_iff_exists.1 hsome
      have hp := filling_of_run hr
      exact fun op hop =>
        ⟨hkeep op hop, fun hone => .inl (hp.valid (indexed_of_succeeds hr) hop hone t)⟩
    | restart => exact hC
    | _ => trivial

end Process

end SecMail
