import SecMail.LTS.Basic
import SecMail.Store.Model

/-!
# Runs of the message store

A `Process` is the store with the rendering operations in progress.  Its actions are the calls
of the store's methods, the completions of operations in any order, the public cache getter, the
replacement of the session, the change of delegate, and a restart of the app, which keeps the
committed rows only.  `storeSystem` is the resulting transition system.

* `PlaintextSearch` and `HtmlSearch` list what a search can do; every invariant of the store is
  proved by these cases, never by unfolding the methods;
* `Process.linked_of_run` : the object an operation is going to fill exists, and has the key of
  the operation's message.
-/

namespace SecMail

variable {τ : Type*}

namespace ADZStoreMsgToCoreData

variable {s : ADZStoreMsgToCoreData τ} {order : FetchOrders} {szUid k : NSString}

/-! ### Getters and the cache -/

@[simp] theorem dicCached_managedObjectContext :
    s.dicCached.managedObjectContext = s.managedObjectContext := by
  unfold dicCached; split <;> (try split_ifs) <;> rfl

@[simp] theorem dicCached_uids : s.dicCached._uids = s._uids := by
  unfold dicCached; split <;> (try split_ifs) <;> rfl

@[simp] theorem dicCached_imapSession : s.dicCached.imapSession = s.imapSession := by
  unfold dicCached; split <;> (try split_ifs) <;> rfl

/-- The getter only ever forgets items. -/
theorem cached_of_dicCached {item : ADZCached τ} (h : s.dicCached.cached k = some item) :
    s.cached k = some item := by
  unfold dicCached at h
  split at h
  · rename_i d hd
    split_ifs at h
    · simp [cached] at h
    · exact h
  · simp [cached] at h

@[simp] theorem uids_cached : (s.uids order).cached k = s.cached k := by
  unfold uids; split <;> (try split) <;> rfl

@[simp] theorem uids_summaries :
    (s.uids order).managedObjectContext.summaries = s.managedObjectContext.summaries := by
  unfold uids; split <;> (try split) <;> rfl

@[simp] theorem uids_htmls :
    (s.uids order).managedObjectContext.htmls = s.managedObjectContext.htmls := by
  unfold uids; split <;> (try split) <;> rfl

@[simp] theorem uids_imapSession : (s.uids order).imapSession = s.imapSession := by
  unfold uids; split <;> (try split) <;> rfl

theorem cached_setCached {item item' : ADZCached τ}
    (h : (s.setCached szUid item).cached k = some item') :
    (k = szUid ∧ item' = item) ∨ s.cached k = some item' := by
  obtain ⟨d, hd, hk⟩ := Option.bind_eq_some_iff.1 h
  obtain ⟨d, hd', rfl⟩ := Option.map_eq_some_iff.1 hd
  by_cases hkey : k = szUid
  · subst hkey
    rw [AList.lookup_insert] at hk
    exact .inl ⟨rfl, (Option.some.inj hk).symm⟩
  · rw [AList.lookup_insert_ne hkey] at hk
    exact .inr (Option.bind_eq_some_iff.2 ⟨d, hd', hk⟩)

theorem cached_removeCached {item : ADZCached τ}
    (h : (s.removeCached szUid).cached k = some item) : k ≠ szUid ∧ s.cached k = some item := by
  obtain ⟨d, hd, hk⟩ := Option.bind_eq_some_iff.1 h
  obtain ⟨d, hd', rfl⟩ := Option.map_eq_some_iff.1 hd
  by_cases hkey : k = szUid
  · subst hkey
    rw [AList.lookup_erase] at hk
    cases hk
  · rw [AList.lookup_erase_ne hkey] at hk
    exact ⟨hkey, Option.bind_eq_some_iff.2 ⟨d, hd', hk⟩⟩

theorem cached_setCachedHtml {t : Option τ} {item : ADZCached τ}
    (h : (s.setCachedHtml szUid t).cached k = some item) :
    s.cached k = some item ∨
      ∃ old, s.cached szUid = some old ∧ k = szUid ∧ item = { old with szHtml := t } := by
  unfold setCachedHtml at h
  split at h
  · rename_i old hold
    rcases cached_setCached h with ⟨rfl, rfl⟩ | h
    · exact .inr ⟨old, hold, rfl, rfl⟩
    · exact .inl h
  · exact .inl h

@[simp] theorem setCachedHtml_managedObjectContext {t : Option τ} :
    (s.setCachedHtml szUid t).managedObjectContext = s.managedObjectContext := by
  unfold setCachedHtml; split <;> rfl

@[simp] theorem setCachedHtml_uids {t : Option τ} : (s.setCachedHtml szUid t)._uids = s._uids := by
  unfold setCachedHtml; split <;> rfl

/-! ### What a search does -/

/-- The outcomes of `searchPlaintextOfMsg` for a message. -/
inductive PlaintextSearch (s : ADZStoreMsgToCoreData τ) (order : FetchOrders)
    (m : MCOIMAPMessage) : Reply τ → Prop
  | cached {item : ADZCached τ} {t : τ} (hc : s.dicCached.cached m.szUid = some item)
      (ht : item.szPlaintext = some t) : PlaintextSearch s order m ⟨some t, s.dicCached, none⟩
  | dropped {item : ADZCached τ} (hc : s.dicCached.cached m.szUid = some item)
      (ht : item.szPlaintext = none) :
      PlaintextSearch s order m ⟨none, s.dicCached.removeCached m.szUid, none⟩
  | missing (hc : s.dicCached.cached m.szUid = none)
      (hl : containsString (s.dicCached.uids order).szUids m.szUid = true)
      (hm : ∀ i o, s.managedObjectContext.summaries.object i = some o → o.szUid ≠ m.szUid) :
      PlaintextSearch s order m ⟨none, s.dicCached.uids order, none⟩
  | retried {i : ℕ} {o : ADZMessageSummary τ} (hc : s.dicCached.cached m.szUid = none)
      (hl : containsString (s.dicCached.uids order).szUids m.szUid = true)
      (ho : s.managedObjectContext.summaries.object i = some o) (hk : o.szUid = m.szUid)
      (ht : o.szPlaintext = none) :
      PlaintextSearch s order m ⟨none, s.dicCached.uids order, s.setPlaintext m i⟩
  | stored {i : ℕ} {o : ADZMessageSummary τ} {t : τ} (hc : s.dicCached.cached m.szUid = none)
      (hl : containsString (s.dicCached.uids order).szUids m.szUid = true)
      (ho : s.managedObjectContext.summaries.object i = some o) (hk : o.szUid = m.szUid)
      (ht : o.szPlaintext = some t) :
      PlaintextSearch s order m
        ⟨some t, (s.dicCached.uids order).setCached m.szUid ⟨some t, none⟩, none⟩
  | inserted (hc : s.dicCached.cached m.szUid = none)
      (hl : containsString (s.dicCached.uids order).szUids m.szUid = false) :
      PlaintextSearch s order m ⟨none, (s.dicCached.uids order).insertSummary m,
        s.setPlaintext m s.managedObjectContext.summaries.length⟩

theorem searchPlaintextOfMsg_cases (s : ADZStoreMsgToCoreData τ) (order : FetchOrders)
    (m : MCOIMAPMessage) : PlaintextSearch s order m (s.searchPlaintextOfMsg order (some m)) := by
  simp only [searchPlaintextOfMsg, setPlaintext, uids_summaries, dicCached_managedObjectContext,
    uids_imapSession, dicCached_imapSession]
  split
  · rename_i item hc
    split
    · exact .dropped hc ‹_›
    · exact .cached hc ‹_›
  · rename_i hc
    split_ifs with hl
    · split
      · rename_i hf
        rw [Table.fetchFirst_eq_none] at hf
        exact .missing hc hl fun i o ho => by simpa using hf i o ho
      · rename_i i hf
        obtain ⟨o, ho, hk⟩ := Table.fetchFirst_eq_some hf
        rw [beq_iff_eq] at hk
        simp only [ho, Option.bind_some]
        split
        · exact .retried hc hl ho hk ‹_›
        · exact .stored hc hl ho hk ‹_›
    · exact .inserted hc (by simpa using hl)

/-- A search for a plain text leaves the HTML alone. -/
theorem PlaintextSearch.htmls {m : MCOIMAPMessage} {r : Reply τ}
    (hr : PlaintextSearch s order m r) :
    r.store.managedObjectContext.htmls = s.managedObjectContext.htmls := by
  cases hr with
  | cached => simp
  | dropped => simp [removeCached]
  | missing => simp
  | retried => simp
  | stored => simp [setCached]
  | inserted => simp [insertSummary]

/-- The outcomes of `searchHtmlOfMsg` for a row. -/
inductive HtmlSearch (s : ADZStoreMsgToCoreData τ) (msg : Msg τ) : Reply τ → Prop
  | cached {item : ADZCached τ} {t : τ} (hc : s.cached msg.szUid = some item)
      (ht : item.szHtml = some t) : HtmlSearch s msg ⟨some t, s, none⟩
  | stored {i : ℕ} {o : ADZHtml τ} {t : τ} (ho : s.managedObjectContext.htmls.object i = some o)
      (hk : o.szUid = msg.szUid) (ht : o.szHtml = some t) :
      HtmlSearch s msg ⟨some t, s.setCachedHtml msg.szUid (some t), none⟩
  | inserted : HtmlSearch s msg ⟨none, s.insertHtml msg.szUid,
      s.setHtmlFromServer msg s.managedObjectContext.htmls.length⟩

theorem searchHtmlOfMsg_cases (s : ADZStoreMsgToCoreData τ) (order : FetchOrders) (msg : Msg τ) :
    HtmlSearch s msg (s.searchHtmlOfMsg order (some msg)) := by
  simp only [searchHtmlOfMsg]
  split
  · rename_i t hc
    obtain ⟨item, hc, ht⟩ := Option.bind_eq_some_iff.1 hc
    exact .cached hc ht
  · split
    · rename_i t hf
      obtain ⟨i, hf, ht⟩ := Option.bind_eq_some_iff.1 hf
      obtain ⟨o, ho, hk⟩ := Table.fetchFirst_eq_some hf
      rw [ho, Option.bind_some] at ht
      exact .stored ho (by simpa using hk) ht
    · exact .inserted

/-- The HTML in the `HTML` object that a fetch for the key lists first. -/
def storedHtml (s : ADZStoreMsgToCoreData τ) (order : FetchOrders) (k : NSString) : Option τ :=
  (s.managedObjectContext.htmls.fetchFirst order.html fun o => o.szUid == k).bind fun html =>
    (s.managedObjectContext.htmls.object html).bind ADZHtml.szHtml

/-- HTML that is neither cached nor stored is asked for. -/
theorem searchHtmlOfMsg_of_none {msg : Msg τ}
    (hc : (s.cached msg.szUid).bind ADZCached.szHtml = none)
    (hf : s.storedHtml order msg.szUid = none) :
    s.searchHtmlOfMsg order (some msg) = ⟨none, s.insertHtml msg.szUid,
      s.setHtmlFromServer msg s.managedObjectContext.htmls.length⟩ := by
  unfold storedHtml at hf
  simp only [searchHtmlOfMsg, hc, hf]

/-- HTML that is cached or stored is returned. -/
theorem searchHtmlOfMsg_of_some {msg : Msg τ}
    (h : ¬ ((s.cached msg.szUid).bind ADZCached.szHtml = none ∧
      s.storedHtml order msg.szUid = none)) :
    ∃ t store, s.searchHtmlOfMsg order (some msg) = ⟨some t, store, none⟩ ∧
      store.managedObjectContext = s.managedObjectContext := by
  cases hc : (s.cached msg.szUid).bind ADZCached.szHtml with
  | some t => exact ⟨t, s, by simp only [searchHtmlOfMsg, hc], rfl⟩
  | none =>
    cases hf : s.storedHtml order msg.szUid with
    | none => exact absurd ⟨hc, hf⟩ h
    | some t =>
      unfold storedHtml at hf
      exact ⟨t, s.setCachedHtml msg.szUid (some t), by simp only [searchHtmlOfMsg, hc, hf],
        setCachedHtml_managedObjectContext⟩

/-! ### What a completion does -/

@[simp] theorem fillPlaintext_summaries {i : ℕ} {t : Option τ} :
    (s.fillPlaintext i k t).summaries =
      s.managedObjectContext.summaries.update i fun o => { o with szPlaintext := t } := rfl

@[simp] theorem fillPlaintext_htmls {i : ℕ} {t : Option τ} :
    (s.fillPlaintext i k t).htmls = s.managedObjectContext.htmls := rfl

@[simp] theorem fillHtml_summaries {i : ℕ} {t : Option τ} :
    (s.fillHtml i t).summaries = s.managedObjectContext.summaries := rfl

@[simp] theorem fillHtml_htmls {i : ℕ} {t : Option τ} :
    (s.fillHtml i t).htmls =
      s.managedObjectContext.htmls.update i fun o => { o with szHtml := t } := rfl

@[simp] theorem fillHtml_uids {i : ℕ} {t : Option τ} :
    (s.fillHtml i t).uids = s.managedObjectContext.uids := rfl

theorem plaintextCompleted_eq {i : ℕ} {o : ADZMessageSummary τ} {t : Option τ}
    (ho : s.managedObjectContext.summaries.object i = some o) :
    s.plaintextCompleted i t =
      ({ s with managedObjectContext := (s.fillPlaintext i o.szUid t).save } :
        ADZStoreMsgToCoreData τ).setCached o.szUid ⟨t, none⟩ := by
  simp only [plaintextCompleted, ho]

theorem htmlCompleted_eq {i : ℕ} {o : ADZHtml τ} {t : Option τ}
    (ho : s.managedObjectContext.htmls.object i = some o) :
    s.htmlCompleted i t =
      ({ s with managedObjectContext := (s.fillHtml i t).save } :
        ADZStoreMsgToCoreData τ).setCachedHtml o.szUid t := by
  simp only [htmlCompleted, ho]

end ADZStoreMsgToCoreData

/-! ### Objects keep their keys -/

namespace NSManagedObjectContext

/-- Every `SUMMARY` and `HTML` object of `c` is still in `c'`, for the same message. -/
structure Extends (c c' : NSManagedObjectContext τ) : Prop where
  summaries : c.summaries.Extends ADZMessageSummary.szUid c'.summaries
  htmls : c.htmls.Extends ADZHtml.szUid c'.htmls

variable {c c' c'' : NSManagedObjectContext τ}

theorem Extends.refl (c : NSManagedObjectContext τ) : c.Extends c := ⟨.refl _, .refl _⟩

theorem Extends.trans (h : c.Extends c') (h' : c'.Extends c'') : c.Extends c'' :=
  ⟨h.summaries.trans h'.summaries, h.htmls.trans h'.htmls⟩

theorem extends_save : c.Extends c.save := by
  unfold save
  split_ifs
  · exact ⟨Entity.extends_commit, Entity.extends_commit⟩
  · exact .refl c

end NSManagedObjectContext

namespace ADZStoreMsgToCoreData

variable {s : ADZStoreMsgToCoreData τ} {order : FetchOrders} {k : NSString}

theorem extends_uids :
    s.managedObjectContext.Extends (s.uids order).managedObjectContext :=
  ⟨uids_summaries (s := s) ▸ .refl _, uids_htmls (s := s) ▸ .refl _⟩

theorem PlaintextSearch.extends {m : MCOIMAPMessage} {r : Reply τ}
    (h : PlaintextSearch s order m r) :
    s.managedObjectContext.Extends r.store.managedObjectContext := by
  have hu : s.managedObjectContext.Extends (s.dicCached.uids order).managedObjectContext := by
    rw [← dicCached_managedObjectContext (s := s)]
    exact extends_uids
  cases h with
  | cached => simpa using .refl _
  | dropped => simpa [removeCached] using .refl _
  | missing => exact hu
  | retried => exact hu
  | stored => exact hu
  | inserted => exact hu.trans ⟨Table.extends_insert, .refl _⟩

theorem HtmlSearch.extends {msg : Msg τ} {r : Reply τ} (h : HtmlSearch s msg r) :
    s.managedObjectContext.Extends r.store.managedObjectContext := by
  cases h with
  | cached => exact .refl _
  | stored => simpa using .refl _
  | inserted => exact ⟨.refl _, Table.extends_insert⟩

theorem extends_fillPlaintext (i : ℕ) (t : Option τ) :
    s.managedObjectContext.Extends (s.fillPlaintext i k t) := by
  refine ⟨?_, .refl _⟩
  rw [fillPlaintext_summaries]
  exact Table.extends_update fun _ => rfl

theorem extends_fillHtml (i : ℕ) (t : Option τ) :
    s.managedObjectContext.Extends (s.fillHtml i t) := by
  refine ⟨.refl _, ?_⟩
  rw [fillHtml_htmls]
  exact Table.extends_update fun _ => rfl

theorem extends_plaintextCompleted (i : ℕ) (t : Option τ) :
    s.managedObjectContext.Extends (s.plaintextCompleted i t).managedObjectContext := by
  cases ho : s.managedObjectContext.summaries.object i with
  | none => simpa [plaintextCompleted, ho] using .refl _
  | some o =>
    rw [plaintextCompleted_eq ho]
    exact (extends_fillPlaintext i t).trans NSManagedObjectContext.extends_save

theorem extends_htmlCompleted (i : ℕ) (t : Option τ) :
    s.managedObjectContext.Extends (s.htmlCompleted i t).managedObjectContext := by
  cases ho : s.managedObjectContext.htmls.object i with
  | none => simpa [htmlCompleted, ho] using .refl _
  | some o =>
    rw [htmlCompleted_eq ho, setCachedHtml_managedObjectContext]
    exact (extends_fillHtml i t).trans NSManagedObjectContext.extends_save

end ADZStoreMsgToCoreData

/-! ### The system -/

/-- The two kinds of rendering. -/
inductive Kind
  | plaintext
  | html
  deriving DecidableEq

namespace RenderingOp

/-- The kind of text an operation delivers. -/
def kind : RenderingOp τ → Kind
  | plainTextBody .. => .plaintext
  | html .. => .html

/-- The row whose text an operation delivers. -/
def msg : RenderingOp τ → Msg τ
  | plainTextBody imapMsg .. => .imap imapMsg
  | html msg .. => msg

/-- The session an operation runs on. -/
def session : RenderingOp τ → MCOIMAPSession
  | plainTextBody _ session _ => session
  | html _ session _ => session

/-- The store after the completion block ran with `result`.  An HTML operation on a dictionary
has no defined outcome: the dictionary was cast to a message. -/
def complete (s : ADZStoreMsgToCoreData τ) (result : Option τ) :
    RenderingOp τ → Option (ADZStoreMsgToCoreData τ)
  | plainTextBody _ _ summary => some (s.plaintextCompleted summary result)
  | html (.imap _) _ html_ => some (s.htmlCompleted html_ result)
  | html (.summary _) _ _ => none

/-- The object an operation is going to fill exists, under the key of the operation's row. -/
def Linked (c : NSManagedObjectContext τ) : RenderingOp τ → Prop
  | plainTextBody m _ i => ∃ o, c.summaries.object i = some o ∧ o.szUid = m.szUid
  | html msg _ i => ∃ o, c.htmls.object i = some o ∧ o.szUid = msg.szUid

theorem Linked.mono {c c' : NSManagedObjectContext τ} {op : RenderingOp τ} (h : op.Linked c)
    (hc : c.Extends c') : op.Linked c' := by
  cases op with
  | plainTextBody m σ i =>
    obtain ⟨o, ho, hk⟩ := h
    obtain ⟨o', ho', hk'⟩ := hc.summaries i o ho
    exact ⟨o', ho', hk'.trans hk⟩
  | html msg σ i =>
    obtain ⟨o, ho, hk⟩ := h
    obtain ⟨o', ho', hk'⟩ := hc.htmls i o ho
    exact ⟨o', ho', hk'.trans hk⟩

end RenderingOp

/-- The store and the rendering operations in progress. -/
structure Process (τ : Type*) where
  store : ADZStoreMsgToCoreData τ
  inFlight : List (RenderingOp τ)

/-- What can happen to a store. -/
inductive Action (τ : Type*)
  | searchPlaintextOfMsg (order : FetchOrders) (imapMsg : Option MCOIMAPMessage)
  | searchHtmlOfMsg (order : FetchOrders) (msg : Option (Msg τ))
  /-- The `k`-th operation in progress completes; `none` is an error. -/
  | complete (k : ℕ) (result : Option τ)
  | dicCached
  | setImapSession (session : MCOIMAPSession)
  | setDelegate (screen : Option ℕ)
  | restart

/-- What is seen of an action: the answer of a search and the operation it started; the operation
that completed and, for HTML, the delegate that is sent the result. -/
inductive Observation (τ : Type*)
  | answered (returned : Option τ) (started : Option (RenderingOp τ))
  | completed (op : RenderingOp τ) (delegate : Option ℕ)
  | silent

namespace Process

/-- A process with nothing in progress. -/
def init (c : NSManagedObjectContext τ) (imapSession : Option MCOIMAPSession) : Process τ :=
  ⟨.init c imapSession, []⟩

/-- The process after a search. -/
def reply (p : Process τ) (r : Reply τ) : Process τ × Observation τ :=
  (⟨r.store, p.inFlight ++ r.started.toList⟩, .answered r.returned r.started)

/-- The delegate that is sent the result of `op`. -/
def notified (p : Process τ) : RenderingOp τ → Option ℕ
  | .plainTextBody .. => none
  | .html .. => p.store.delegate

/-- Remove the operation that completed. -/
def finish (p : Process τ) (k : ℕ) (store : ADZStoreMsgToCoreData τ) : Process τ :=
  ⟨store, p.inFlight.eraseIdx k⟩

end Process

/-- The store as a transition system. -/
def storeSystem (τ : Type*) : System (Process τ) (Action τ) (Observation τ) where
  next p
    | .searchPlaintextOfMsg order m => some (p.reply (p.store.searchPlaintextOfMsg order m))
    | .searchHtmlOfMsg order msg => some (p.reply (p.store.searchHtmlOfMsg order msg))
    | .complete k result =>
      p.inFlight[k]?.bind fun op =>
        (op.complete p.store result).map fun store =>
          (p.finish k store, .completed op (p.notified op))
    | .dicCached => some ({ p with store := p.store.dicCached }, .silent)
    | .setImapSession session =>
      some ({ p with store := { p.store with imapSession := some session } }, .silent)
    | .setDelegate screen =>
      some ({ p with store := { p.store with delegate := screen } }, .silent)
    | .restart => some (.init p.store.managedObjectContext.restart none, .silent)

/-- Events of a run of the store. -/
abbrev Event (τ : Type*) := Action τ × Observation τ

/-- The steps of the store, by action. -/
inductive StoreStep (p : Process τ) : Action τ → Process τ → Observation τ → Prop
  | plaintextOfNil (order : FetchOrders) :
      StoreStep p (.searchPlaintextOfMsg order none) p (.answered none none)
  | htmlOfNil (order : FetchOrders) :
      StoreStep p (.searchHtmlOfMsg order none) p (.answered none none)
  | searchPlaintextOfMsg {order : FetchOrders} {m : MCOIMAPMessage} {r : Reply τ}
      (h : p.store.PlaintextSearch order m r) :
      StoreStep p (.searchPlaintextOfMsg order (some m)) (p.reply r).1 (p.reply r).2
  | searchHtmlOfMsg {order : FetchOrders} {msg : Msg τ} {r : Reply τ}
      (h : p.store.HtmlSearch msg r) :
      StoreStep p (.searchHtmlOfMsg order (some msg)) (p.reply r).1 (p.reply r).2
  | plaintextCompleted {k : ℕ} {m : MCOIMAPMessage} {σ : MCOIMAPSession} {i : ℕ}
      (hk : p.inFlight[k]? = some (.plainTextBody m σ i)) (t : Option τ) :
      StoreStep p (.complete k t) (p.finish k (p.store.plaintextCompleted i t))
        (.completed (.plainTextBody m σ i) none)
  | htmlCompleted {k : ℕ} {m : MCOIMAPMessage} {σ : MCOIMAPSession} {i : ℕ}
      (hk : p.inFlight[k]? = some (.html (.imap m) σ i)) (t : Option τ) :
      StoreStep p (.complete k t) (p.finish k (p.store.htmlCompleted i t))
        (.completed (.html (.imap m) σ i) p.store.delegate)
  | dicCached : StoreStep p .dicCached { p with store := p.store.dicCached } .silent
  | setImapSession (σ : MCOIMAPSession) : StoreStep p (.setImapSession σ)
      { p with store := { p.store with imapSession := some σ } } .silent
  | setDelegate (d : Option ℕ) : StoreStep p (.setDelegate d)
      { p with store := { p.store with delegate := d } } .silent
  | restart : StoreStep p .restart (.init p.store.managedObjectContext.restart none) .silent

/-- The operation that completed was in flight, and its delegate is told. -/
theorem completed_of_next {p p' : Process τ} {k : ℕ} {t : Option τ} {op : RenderingOp τ}
    {d : Option ℕ}
    (h : (storeSystem τ).next p (.complete k t) = some (p', .completed op d)) :
    p.inFlight[k]? = some op ∧ d = p.notified op := by
  obtain ⟨op, hk, h⟩ := Option.bind_eq_some_iff.1 h
  obtain ⟨store, -, h⟩ := Option.map_eq_some_iff.1 h
  cases h
  exact ⟨hk, rfl⟩

theorem storeStep_of_next {p p' : Process τ} {a : Action τ} {o : Observation τ}
    (h : (storeSystem τ).next p a = some (p', o)) : StoreStep p a p' o := by
  cases a with
  | searchPlaintextOfMsg order m =>
    cases h
    cases m with
    | none => simpa [Process.reply, ADZStoreMsgToCoreData.searchPlaintextOfMsg] using
        StoreStep.plaintextOfNil order
    | some m => exact .searchPlaintextOfMsg (p.store.searchPlaintextOfMsg_cases order m)
  | searchHtmlOfMsg order msg =>
    cases h
    cases msg with
    | none => simpa [Process.reply, ADZStoreMsgToCoreData.searchHtmlOfMsg] using
        StoreStep.htmlOfNil order
    | some msg => exact .searchHtmlOfMsg (p.store.searchHtmlOfMsg_cases order msg)
  | complete k t =>
    obtain ⟨op, hk, h⟩ := Option.bind_eq_some_iff.1 h
    obtain ⟨store, hc, h⟩ := Option.map_eq_some_iff.1 h
    cases h
    cases op with
    | plainTextBody m σ i => cases hc; exact .plaintextCompleted hk t
    | html msg σ i =>
      cases msg with
      | imap m => cases hc; exact .htmlCompleted hk t
      | summary d => cases hc
  | dicCached => cases h; exact .dicCached
  | setImapSession σ => cases h; exact .setImapSession σ
  | setDelegate d => cases h; exact .setDelegate d
  | restart => cases h; exact .restart

namespace Process

/-- Every operation in progress has its object. -/
def Linked (p : Process τ) : Prop := ∀ op ∈ p.inFlight, op.Linked p.store.managedObjectContext

theorem linked_init (c : NSManagedObjectContext τ) (σ : Option MCOIMAPSession) :
    (Process.init c σ).Linked := by
  simp [Linked, init]

theorem Linked.finish {p : Process τ} {k : ℕ} {s : ADZStoreMsgToCoreData τ} (h : p.Linked)
    (hs : p.store.managedObjectContext.Extends s.managedObjectContext) : (p.finish k s).Linked :=
  fun op hop => (h op (List.mem_of_mem_eraseIdx hop)).mono hs

theorem Linked.reply {p : Process τ} {r : Reply τ} (h : p.Linked)
    (hr : p.store.managedObjectContext.Extends r.store.managedObjectContext)
    (hop : ∀ op, r.started = some op → op.Linked r.store.managedObjectContext) :
    (p.reply r).1.Linked := by
  intro op hmem
  rcases List.mem_append.1 hmem with hmem | hmem
  · exact (h op hmem).mono hr
  · exact hop op (Option.mem_toList.1 hmem)

end Process

namespace ADZStoreMsgToCoreData

variable {s : ADZStoreMsgToCoreData τ} {order : FetchOrders}

/-- An operation started by a search has its object. -/
theorem PlaintextSearch.linked {m : MCOIMAPMessage} {r : Reply τ} {op : RenderingOp τ}
    (h : PlaintextSearch s order m r) (hop : r.started = some op) :
    op.Linked r.store.managedObjectContext := by
  cases h with
  | cached => cases hop
  | dropped => cases hop
  | missing => cases hop
  | stored => cases hop
  | retried hc hl ho hk ht =>
    obtain ⟨σ, -, rfl⟩ := Option.map_eq_some_iff.1 hop
    exact ⟨_, by simpa using ho, hk⟩
  | inserted hc hl =>
    obtain ⟨σ, -, rfl⟩ := Option.map_eq_some_iff.1 hop
    refine ⟨⟨m.szUid, m.header.subject, some m.header.date, none⟩, ?_, rfl⟩
    simp [insertSummary]

theorem HtmlSearch.linked {msg : Msg τ} {r : Reply τ} {op : RenderingOp τ}
    (h : HtmlSearch s msg r) (hop : r.started = some op) :
    op.Linked r.store.managedObjectContext := by
  cases h with
  | cached => cases hop
  | stored => cases hop
  | inserted =>
    obtain ⟨σ, -, rfl⟩ := Option.map_eq_some_iff.1 hop
    exact ⟨_, Table.object_insert_self, rfl⟩

end ADZStoreMsgToCoreData

namespace Process

variable {p p' : Process τ} {a : Action τ} {o : Observation τ}

theorem Linked.step (h : p.Linked) (hs : StoreStep p a p' o) : p'.Linked := by
  cases hs with
  | plaintextOfNil => exact h
  | htmlOfNil => exact h
  | searchPlaintextOfMsg hr => exact h.reply hr.extends fun _ => hr.linked
  | searchHtmlOfMsg hr => exact h.reply hr.extends fun _ => hr.linked
  | plaintextCompleted hk t =>
    exact h.finish (ADZStoreMsgToCoreData.extends_plaintextCompleted _ t)
  | htmlCompleted hk t => exact h.finish (ADZStoreMsgToCoreData.extends_htmlCompleted _ t)
  | dicCached => simpa [Linked] using h
  | setImapSession σ => exact h
  | setDelegate d => exact h
  | restart => exact linked_init _ _

/-- In every run, every operation in progress has its object. -/
theorem linked_of_run {C : Process τ → Action τ → Prop} {p₀ : Process τ} {h : List (Event τ)}
    (hr : (storeSystem τ).RunWhere C p₀ h p) (h₀ : p₀.inFlight = []) : p.Linked :=
  hr.invariant_state (I := Linked) (by simp [Linked, h₀])
    fun _ _ _ _ hl _ hs => hl.step (storeStep_of_next hs)

end Process

/-! ### Data of sample runs -/

/-- An account on one server. -/
def account (username : String) : MCOIMAPSession := ⟨"imap.example".toList, username.toList, [], 1⟩

/-- A message with a subject. -/
def mail (uid : UInt32) : MCOIMAPMessage := ⟨uid, ⟨some "subject".toList, 0⟩⟩

end SecMail
