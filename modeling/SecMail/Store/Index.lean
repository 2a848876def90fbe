import SecMail.Store.Step

/-!
# The uid index

The `UIDS` object records the uids whose plain text was rendered, in one string: each completion
appends `", "` and the uid.  A row of `SUMMARY` is inserted when the text is asked for, the index
is extended when the rendering completes, and both are committed by the same saves.

* `ADZStoreMsgToCoreData.Indexed` is the invariant of the index; its two halves `listed` and
  `recorded` are what holds in memory, where rows and index may disagree;
* `index_agrees` : in the database they agree;
* `served_iff` : which messages are starved of their preview.  The index is searched for the uid
  as a substring, so a uid without a row that is part of a recorded one is never rendered
  (`not_served`).
-/

namespace SecMail

variable {τ : Type*}

/-! ### Tokens -/

/-- The uids recorded in `szUids`: its parts between `", "`, less a leading `(null)`. -/
def uidTokens : Option NSString → List NSString
  | none => []
  | some szUids =>
    match Text.components ',' ' ' szUids with
    | [] => []
    | w :: ws => if w = "(null)".toList then ws else w :: ws

theorem uidTokens_none : uidTokens none = [] := rfl

theorem uidTokens_append {x k : NSString} (hk : ',' ∉ k) :
    uidTokens (some (x ++ ", ".toList ++ k)) = uidTokens (some x) ++ [k] := by
  have hsep : Text.components ',' ' ' (x ++ ", ".toList ++ k) =
      Text.components ',' ' ' x ++ [k] := by
    rw [show x ++ ", ".toList ++ k = x ++ ',' :: ' ' :: k by simp,
      Text.components_append_sep (by decide), Text.components_of_not_mem hk]
  obtain ⟨w, ws, hw⟩ := List.exists_cons_of_ne_nil (Text.components_ne_nil (a := ',') (b := ' ') x)
  simp only [uidTokens, hsep, hw, List.cons_append]
  split_ifs <;> rfl

/-- A completion records one more uid. -/
theorem uidTokens_appendUid {szUids : Option NSString} {k : NSString} (hk : ',' ∉ k) :
    uidTokens (some (appendUid szUids k)) = uidTokens szUids ++ [k] := by
  rw [appendUid, uidTokens_append hk]
  cases szUids with
  | none => rfl
  | some x => rfl

namespace MCOIMAPMessage

variable {m : MCOIMAPMessage}

theorem comma_not_mem_szUid : ',' ∉ m.szUid := Text.not_mem_decimal (by decide) (by decide)

theorem szUid_ne_nil : m.szUid ≠ [] := Text.decimal_ne_nil _

/-- No part of a uid occurs in the word that `%@` prints for `nil`. -/
theorem not_infix_null : ¬ m.szUid <:+: "(null)".toList := by
  intro h
  obtain ⟨c, hc⟩ := List.exists_mem_of_ne_nil _ (szUid_ne_nil (m := m))
  have hnull : ("(null)".toList.all fun c => !(c == '-' || c.isDigit)) = true := by decide
  have hchar := List.all_eq_true.1 hnull c (h.subset hc)
  rcases Text.mem_decimal hc with rfl | hdigit
  · simp at hchar
  · simp [hdigit] at hchar

end MCOIMAPMessage

/-- Searching the string for a uid is searching the recorded uids for it. -/
theorem containsString_iff {szUids : Option NSString} {m : MCOIMAPMessage} :
    containsString szUids m.szUid = true ↔ ∃ w ∈ uidTokens szUids, m.szUid <:+: w := by
  cases szUids with
  | none => simp [containsString, uidTokens_none]
  | some x =>
    have hspace : ' ' ∉ m.szUid := Text.not_mem_decimal (by decide) (by decide)
    have hinfix := Text.infix_iff_components (l := x) m.szUid_ne_nil m.comma_not_mem_szUid hspace
    obtain ⟨w, ws, hw⟩ :=
      List.exists_cons_of_ne_nil (Text.components_ne_nil (a := ',') (b := ' ') x)
    simp only [containsString, Option.any_some, decide_eq_true_eq, uidTokens, hinfix, hw]
    split_ifs with hnull
    · simp only [hnull, List.mem_cons, exists_eq_or_imp, m.not_infix_null, false_or, ne_eq,
        m.szUid_ne_nil, not_false_eq_true, true_and]
    · simp [m.szUid_ne_nil]

/-! ### The context -/

namespace NSManagedObjectContext

/-- The string of the `UIDS` object. -/
def szUids (c : NSManagedObjectContext τ) : Option NSString :=
  (c.uids.object 0).bind ADZAllUids.szUids

/-- Some `SUMMARY` object, saved or not, is for the key `k`. -/
def HasSummary (c : NSManagedObjectContext τ) (k : NSString) : Prop :=
  ∃ i o, c.summaries.object i = some o ∧ o.szUid = k

/-- The index and the rows of a context. -/
structure Indexed (c : NSManagedObjectContext τ) : Prop where
  single : c.uids.length ≤ 1
  decimal : ∀ i o, c.summaries.object i = some o → ∃ m : MCOIMAPMessage, o.szUid = m.szUid
  decimalRow : ∀ r ∈ c.summaries.rows, ∃ m : MCOIMAPMessage, r.szUid = m.szUid
  /-- Recorded uids have an object. -/
  listed : ∀ k ∈ uidTokens c.szUids, c.HasSummary k
  /-- Objects with a text are recorded. -/
  recorded : ∀ i o t, c.summaries.object i = some o → o.szPlaintext = some t →
    o.szUid ∈ uidTokens c.szUids
  /-- In the database the two agree. -/
  agree : ∀ k, (∃ r ∈ c.uids.rows, k ∈ uidTokens (some r.szUids)) ↔
    ∃ r ∈ c.summaries.rows, r.szUid = k

variable {c : NSManagedObjectContext τ}

theorem HasSummary.mono {c' : NSManagedObjectContext τ} {k : NSString} (h : c.HasSummary k)
    (hc : c.Extends c') : c'.HasSummary k := by
  obtain ⟨i, o, ho, rfl⟩ := h
  obtain ⟨o', ho', hk⟩ := hc.summaries i o ho
  exact ⟨i, o', ho', hk⟩

theorem indexed_empty : (empty : NSManagedObjectContext τ).Indexed := by
  constructor <;> simp [empty, Table.object, Table.rows, szUids, uidTokens_none]

/-- A committed context is its own database. -/
theorem Indexed.commit (h : c.Indexed) (hv : c.Valid) :
    (⟨SUMMARY.commit c.summaries, HTML.commit c.htmls, UIDS.commit c.uids⟩ :
      NSManagedObjectContext τ).Indexed := by
  have hsz : (⟨SUMMARY.commit c.summaries, HTML.commit c.htmls, UIDS.commit c.uids⟩ :
      NSManagedObjectContext τ).szUids = c.szUids := by
    simp [szUids]
  refine ⟨by simpa using h.single, by simpa using h.decimal, fun r hr => ?_, fun k hk => ?_,
    fun i o t ho ht => ?_, fun k => ?_⟩
  · obtain ⟨i, hi⟩ := Entity.mem_rows_commit.1 hr
    exact h.decimal i _ hi
  · obtain ⟨i, o, ho, hk⟩ := h.listed k (hsz ▸ hk)
    exact ⟨i, o, Entity.object_commit.trans ho, hk⟩
  · rw [hsz]
    exact h.recorded i o t (Entity.object_commit.symm.trans ho) ht
  constructor
  · rintro ⟨r, hr, hk⟩
    obtain ⟨i, hi⟩ := Entity.mem_rows_commit.1 hr
    -- there is only one `UIDS` object
    have hi0 : i = 0 := by
      have := Table.lt_length_of_object hi
      have := h.single
      omega
    subst hi0
    have hk : k ∈ uidTokens c.szUids := by rwa [szUids, hi]
    obtain ⟨j, o, ho, rfl⟩ := h.listed k hk
    obtain ⟨row, hrow⟩ := Entity.valid_iff.1 hv.1 j o ho
    have hload := SUMMARY.validate_eq_some.1 hrow
    refine ⟨row, Entity.mem_rows_commit.2 ⟨j, hload ▸ ho⟩, ?_⟩
    rw [← hload]
    rfl
  · rintro ⟨r, hr, rfl⟩
    obtain ⟨i, hi⟩ := Entity.mem_rows_commit.1 hr
    have hk := h.recorded i _ _ hi rfl
    obtain ⟨x, hx⟩ : ∃ x, c.szUids = some x := by
      cases hx : c.szUids with
      | none => simp [hx, uidTokens_none] at hk
      | some x => exact ⟨x, rfl⟩
    obtain ⟨⟨_⟩, ho, rfl⟩ := Option.bind_eq_some_iff.1 hx
    exact ⟨⟨x⟩, Entity.mem_rows_commit.2 ⟨0, ho⟩, by rwa [hx] at hk⟩

theorem Indexed.save (h : c.Indexed) : c.save.Indexed := by
  unfold NSManagedObjectContext.save
  split_ifs with hv
  · exact h.commit hv
  · exact h

theorem Indexed.restart (h : c.Indexed) : c.restart.Indexed := by
  have hlen : c.uids.rows.length ≤ 1 :=
    (List.length_filterMap_le _ _).trans h.single
  -- the string of the one committed row, if there is one
  have htok : ∀ k, k ∈ uidTokens c.restart.szUids ↔
      ∃ r ∈ c.uids.rows, k ∈ uidTokens (some r.szUids) := by
    intro k
    rw [szUids, NSManagedObjectContext.restart, Entity.object_reload]
    match hrows : c.uids.rows, hlen with
    | [], _ => simp [uidTokens_none]
    | [r], _ => simp [UIDS]
  refine ⟨by simpa [NSManagedObjectContext.restart, Entity.reload] using hlen,
    fun i o ho => ?_, fun r hr => ?_, fun k hk => ?_, fun i o t ho ht => ?_, fun k => ?_⟩
  · obtain ⟨r, hr, rfl⟩ := Option.map_eq_some_iff.1 (Entity.object_reload.symm.trans ho)
    exact h.decimalRow r (List.mem_of_getElem? hr)
  · exact h.decimalRow r (by simpa [NSManagedObjectContext.restart] using hr)
  · exact Entity.exists_object_reload.2 ((h.agree k).1 ((htok k).1 hk))
  · obtain ⟨r, hr, rfl⟩ := Option.map_eq_some_iff.1 (Entity.object_reload.symm.trans ho)
    exact (htok _).2 ((h.agree _).2 ⟨r, List.mem_of_getElem? hr, rfl⟩)
  · simpa [NSManagedObjectContext.restart] using h.agree k

/-- A change of the `HTML` objects does not touch the index. -/
theorem Indexed.withHtmls (h : c.Indexed) (htmls : Table (ADZHtml τ) (HtmlRow τ)) :
    ({ c with htmls } : NSManagedObjectContext τ).Indexed :=
  ⟨h.single, h.decimal, h.decimalRow, h.listed, h.recorded, h.agree⟩

end NSManagedObjectContext

/-! ### The store -/

namespace ADZStoreMsgToCoreData

variable {s : ADZStoreMsgToCoreData τ} {order : FetchOrders}

/-- **The invariant of the index.** -/
structure Indexed (s : ADZStoreMsgToCoreData τ) : Prop where
  context : s.managedObjectContext.Indexed
  /-- The `UIDS` object of the store exists. -/
  uids : ∀ j, s._uids = some j → j < s.managedObjectContext.uids.length
  /-- Cached uids have an object. -/
  cached : ∀ k item, s.cached k = some item → s.managedObjectContext.HasSummary k

theorem indexed_init {c : NSManagedObjectContext τ} {σ : Option MCOIMAPSession} (h : c.Indexed) :
    (init c σ).Indexed := by
  refine ⟨h, ?_, ?_⟩ <;> simp [init, ADZStoreMsgToCoreData.cached]

theorem Indexed.szUids (h : s.Indexed) {j : ℕ} (hj : s._uids = some j) :
    j = 0 ∧ s.szUids = s.managedObjectContext.szUids := by
  have hlt := h.uids j hj
  have hle := h.context.single
  obtain rfl : j = 0 := by omega
  exact ⟨rfl, by rw [ADZStoreMsgToCoreData.szUids, hj]; rfl⟩

theorem Indexed.dicCached (h : s.Indexed) : s.dicCached.Indexed := by
  refine ⟨by simpa using h.context, by simpa using h.uids, fun k item hc => ?_⟩
  simpa using h.cached k item (cached_of_dicCached hc)

/-- The getter of the `UIDS` object. -/
theorem Indexed.getUids (h : s.Indexed) (order : FetchOrders) : (s.uids order).Indexed ∧
    (∃ j, (s.uids order)._uids = some j) ∧
    (s.uids order).managedObjectContext.szUids = s.managedObjectContext.szUids := by
  have hcached : ∀ k item, (s.uids order).cached k = some item →
      (s.uids order).managedObjectContext.HasSummary k := by
    intro k item hc
    rw [uids_cached] at hc
    exact (h.cached k item hc).mono extends_uids
  revert hcached
  unfold ADZStoreMsgToCoreData.uids
  split
  · rename_i j hj
    exact fun _ => ⟨h, ⟨j, hj⟩, rfl⟩
  split
  · rename_i hf
    intro hcached
    -- no object was found, so the inserted one is the only one
    have hnil : s.managedObjectContext.uids = [] := by
      rw [Table.fetchFirst_eq_none] at hf
      rw [List.eq_nil_iff_length_eq_zero, ← Nat.le_zero, ← Table.object_eq_none,
        Option.eq_none_iff_forall_ne_some]
      exact fun o ho => absurd (hf 0 o ho) (by simp)
    have hsz : ({ s.managedObjectContext with
        uids := s.managedObjectContext.uids.insert ⟨none⟩ } : NSManagedObjectContext τ).szUids =
          s.managedObjectContext.szUids := by
      simp [NSManagedObjectContext.szUids, hnil, Table.insert, Table.object]
    refine ⟨⟨⟨by simp [hnil], h.context.decimal, h.context.decimalRow, ?_, ?_, ?_⟩, ?_, hcached⟩,
      ⟨_, rfl⟩, hsz⟩
    · rw [hsz]
      exact h.context.listed
    · rw [hsz]
      exact h.context.recorded
    · simpa using h.context.agree
    · rintro j ⟨⟩
      simp
  · rename_i j hf
    intro hcached
    obtain ⟨o, ho, -⟩ := Table.fetchFirst_eq_some hf
    refine ⟨⟨h.context, ?_, hcached⟩, ⟨j, rfl⟩, rfl⟩
    rintro j ⟨⟩
    exact Table.lt_length_of_object ho

theorem Indexed.setCached (h : s.Indexed) {k : NSString} (item : ADZCached τ)
    (hk : s.managedObjectContext.HasSummary k) : (s.setCached k item).Indexed := by
  refine ⟨h.context, h.uids, fun k' item' hc => ?_⟩
  rcases cached_setCached hc with ⟨rfl, -⟩ | hc
  · exact hk
  · exact h.cached k' item' hc

theorem Indexed.removeCached (h : s.Indexed) (k : NSString) : (s.removeCached k).Indexed :=
  ⟨h.context, h.uids, fun k' item hc => h.cached k' item (cached_removeCached hc).2⟩

theorem Indexed.setCachedHtml (h : s.Indexed) (k : NSString) (t : Option τ) :
    (s.setCachedHtml k t).Indexed := by
  refine ⟨by simpa using h.context, by simpa using h.uids, fun k' item hc => ?_⟩
  rcases cached_setCachedHtml hc with hc | ⟨old, hold, rfl, -⟩
  · simpa using h.cached k' item hc
  · simpa using h.cached _ old hold

theorem Indexed.insertSummary (h : s.Indexed) (m : MCOIMAPMessage) :
    (s.insertSummary m).Indexed := by
  have hext : s.managedObjectContext.Extends (s.insertSummary m).managedObjectContext :=
    ⟨Table.extends_insert, .refl _⟩
  refine ⟨⟨h.context.single, fun i o ho => ?_, ?_, fun k hk => (h.context.listed k hk).mono hext,
    fun i o t ho ht => ?_, ?_⟩, h.uids, fun k item hc => (h.cached k item hc).mono hext⟩
  · rcases Table.object_insert_eq_some.1 ho with ho | ⟨-, rfl⟩
    · exact h.context.decimal i o ho
    · exact ⟨m, rfl⟩
  · simpa [ADZStoreMsgToCoreData.insertSummary] using h.context.decimalRow
  · rcases Table.object_insert_eq_some.1 ho with ho | ⟨-, rfl⟩
    · exact h.context.recorded i o t ho ht
    · cases ht
  · simpa [ADZStoreMsgToCoreData.insertSummary] using h.context.agree

theorem Indexed.insertHtml (h : s.Indexed) (k : NSString) : (s.insertHtml k).Indexed :=
  ⟨h.context.withHtmls _, h.uids, h.cached⟩

/-- The index and the rows after the assignments of a completion. -/
theorem Indexed.fillPlaintext (h : s.Indexed) {i j : ℕ} {o : ADZMessageSummary τ} (t : Option τ)
    (hj : s._uids = some j) (ho : s.managedObjectContext.summaries.object i = some o) :
    (s.fillPlaintext i o.szUid t).Indexed := by
  obtain ⟨rfl, -⟩ := h.szUids hj
  obtain ⟨m, hm⟩ := h.context.decimal i o ho
  obtain ⟨u, hu⟩ : ∃ u, s.managedObjectContext.uids.object 0 = some u := by
    rw [← Option.ne_none_iff_exists', Ne, Table.object_eq_none]
    exact Nat.not_le.2 (h.uids 0 hj)
  have hext : s.managedObjectContext.Extends (s.fillPlaintext i o.szUid t) :=
    extends_fillPlaintext i t
  have huids : (s.fillPlaintext i o.szUid t).uids = s.managedObjectContext.uids.update 0
      fun u => ⟨some (appendUid u.szUids o.szUid)⟩ := by
    simp only [ADZStoreMsgToCoreData.fillPlaintext, hj]
  have htok : uidTokens (s.fillPlaintext i o.szUid t).szUids =
      uidTokens s.managedObjectContext.szUids ++ [o.szUid] := by
    have hcomma : ',' ∉ o.szUid := hm ▸ m.comma_not_mem_szUid
    simp [NSManagedObjectContext.szUids, huids, hu, uidTokens_appendUid hcomma]
  refine ⟨by simpa [huids] using h.context.single, fun i' o' ho' => ?_, ?_, fun k hk => ?_,
    fun i' o' t' ho' ht' => ?_, ?_⟩
  · rw [fillPlaintext_summaries] at ho'
    obtain ⟨o₁, ho₁, rfl⟩ := Table.object_update_eq_some ho'
    have := h.context.decimal i' o₁ ho₁
    split_ifs <;> exact this
  · simpa using h.context.decimalRow
  · rw [htok, List.mem_append, List.mem_singleton] at hk
    rcases hk with hk | rfl
    · exact (h.context.listed k hk).mono hext
    · exact NSManagedObjectContext.HasSummary.mono ⟨i, o, ho, rfl⟩ hext
  · rw [htok, List.mem_append, List.mem_singleton]
    rw [fillPlaintext_summaries] at ho'
    obtain ⟨o₁, ho₁, rfl⟩ := Table.object_update_eq_some ho'
    split_ifs at ht' ⊢ with hi
    · subst hi
      cases ho.symm.trans ho₁
      exact .inr rfl
    · exact .inl (h.context.recorded i' o₁ t' ho₁ ht')
  · simpa [huids] using h.context.agree

/-- A context with the same objects may be put in place of the old one. -/
theorem Indexed.withContext (h : s.Indexed) {c : NSManagedObjectContext τ} (hc : c.Indexed)
    (hext : s.managedObjectContext.Extends c)
    (hlen : c.uids.length = s.managedObjectContext.uids.length) :
    ({ s with managedObjectContext := c } : ADZStoreMsgToCoreData τ).Indexed :=
  ⟨hc, fun j hj => hlen ▸ h.uids j hj, fun k item hk => (h.cached k item hk).mono hext⟩

theorem Indexed.plaintextCompleted (h : s.Indexed) {i j : ℕ} (hj : s._uids = some j)
    (t : Option τ) : (s.plaintextCompleted i t).Indexed := by
  cases ho : s.managedObjectContext.summaries.object i with
  | none => simpa [ADZStoreMsgToCoreData.plaintextCompleted, ho] using h
  | some o =>
    have hext : s.managedObjectContext.Extends (s.fillPlaintext i o.szUid t).save :=
      (extends_fillPlaintext i t).trans NSManagedObjectContext.extends_save
    have hlen : (s.fillPlaintext i o.szUid t).save.uids.length =
        s.managedObjectContext.uids.length := by
      unfold NSManagedObjectContext.save
      split_ifs <;> simp [ADZStoreMsgToCoreData.fillPlaintext, hj]
    rw [plaintextCompleted_eq ho]
    exact (h.withContext (h.fillPlaintext t hj ho).save hext hlen).setCached _
      (NSManagedObjectContext.HasSummary.mono ⟨i, o, ho, rfl⟩ hext)

theorem Indexed.htmlCompleted (h : s.Indexed) (i : ℕ) (t : Option τ) :
    (s.htmlCompleted i t).Indexed := by
  cases ho : s.managedObjectContext.htmls.object i with
  | none => simpa [ADZStoreMsgToCoreData.htmlCompleted, ho] using h
  | some o =>
    have hext : s.managedObjectContext.Extends (s.fillHtml i t).save :=
      (extends_fillHtml i t).trans NSManagedObjectContext.extends_save
    have hlen : (s.fillHtml i t).save.uids.length = s.managedObjectContext.uids.length := by
      unfold NSManagedObjectContext.save
      split_ifs <;> simp
    rw [htmlCompleted_eq ho]
    exact (h.withContext (h.context.withHtmls _).save hext hlen).setCachedHtml _ _

theorem PlaintextSearch.indexed {m : MCOIMAPMessage} {r : Reply τ} (hr : PlaintextSearch s order m r)
    (h : s.Indexed) : r.store.Indexed := by
  have hu := (h.dicCached.getUids order).1
  cases hr with
  | cached => exact h.dicCached
  | dropped => exact h.dicCached.removeCached _
  | missing => exact hu
  | retried => exact hu
  | stored hc hl ho hk ht => exact hu.setCached _ ⟨_, _, by simpa using ho, hk⟩
  | inserted => exact hu.insertSummary m

/-- A search that starts an operation has looked up the `UIDS` object. -/
theorem PlaintextSearch.uids_of_started {m : MCOIMAPMessage} {r : Reply τ} {op : RenderingOp τ}
    (hr : PlaintextSearch s order m r) (h : s.Indexed) (hop : r.started = some op) :
    ∃ j, r.store._uids = some j := by
  cases hr with
  | cached => cases hop
  | dropped => cases hop
  | missing => cases hop
  | stored => cases hop
  | retried => exact (h.dicCached.getUids order).2.1
  | inserted => exact (h.dicCached.getUids order).2.1

/-- The store keeps its `UIDS` object. -/
theorem PlaintextSearch.uids_mono {m : MCOIMAPMessage} {r : Reply τ} {j : ℕ}
    (hr : PlaintextSearch s order m r) (hj : s._uids = some j) : r.store._uids = some j := by
  have hu : (s.dicCached.uids order)._uids = some j := by
    simp [ADZStoreMsgToCoreData.uids, hj]
  cases hr with
  | cached => simpa using hj
  | dropped => simpa [ADZStoreMsgToCoreData.removeCached] using hj
  | missing => exact hu
  | retried => exact hu
  | stored => exact hu
  | inserted => exact hu

theorem HtmlSearch.indexed {msg : Msg τ} {r : Reply τ} (hr : HtmlSearch s msg r) (h : s.Indexed) :
    r.store.Indexed ∧ r.store._uids = s._uids := by
  cases hr with
  | cached => exact ⟨h, rfl⟩
  | stored => exact ⟨h.setCachedHtml _ _, by simp⟩
  | inserted => exact ⟨h.insertHtml _, rfl⟩

end ADZStoreMsgToCoreData

/-! ### Runs -/

namespace Process

variable {p p' : Process τ} {a : Action τ} {o : Observation τ}

/-- The invariant of a process: the index is in order, and the `UIDS` object has been looked up
before any plain text is rendered. -/
structure Indexed (p : Process τ) : Prop where
  store : p.store.Indexed
  inFlight : ∀ op ∈ p.inFlight, op.kind = .plaintext → ∃ j, p.store._uids = some j

theorem indexed_init {c : NSManagedObjectContext τ} {σ : Option MCOIMAPSession} (h : c.Indexed) :
    (init c σ).Indexed :=
  ⟨ADZStoreMsgToCoreData.indexed_init h, by simp [init]⟩

theorem Indexed.step (h : p.Indexed) (hs : StoreStep p a p' o) : p'.Indexed := by
  cases hs with
  | plaintextOfNil => exact h
  | htmlOfNil => exact h
  | @searchPlaintextOfMsg order m r hr =>
    refine ⟨hr.indexed h.store, fun op hop hk => ?_⟩
    rcases List.mem_append.1 hop with hop | hop
    · obtain ⟨j, hj⟩ := h.inFlight op hop hk
      exact ⟨j, hr.uids_mono hj⟩
    · exact hr.uids_of_started h.store (Option.mem_toList.1 hop)
  | @searchHtmlOfMsg order msg r hr =>
    obtain ⟨hstore, huids⟩ := hr.indexed h.store
    refine ⟨hstore, fun op hop hk => ?_⟩
    rcases List.mem_append.1 hop with hop | hop
    · exact huids ▸ h.inFlight op hop hk
    · have hst := Option.mem_toList.1 hop
      cases hr with
      | cached => cases hst
      | stored => cases hst
      | inserted =>
        obtain ⟨σ, -, rfl⟩ := Option.map_eq_some_iff.1 hst
        cases hk
  | @plaintextCompleted k m σ i hk t =>
    obtain ⟨j, hj⟩ := h.inFlight _ (List.mem_of_getElem? hk) rfl
    refine ⟨h.store.plaintextCompleted hj t, fun op hop hkind => ⟨j, ?_⟩⟩
    show (p.store.plaintextCompleted i t)._uids = some j
    unfold ADZStoreMsgToCoreData.plaintextCompleted
    split <;> exact hj
  | @htmlCompleted k m σ i hk t =>
    refine ⟨h.store.htmlCompleted i t, fun op hop hkind => ?_⟩
    obtain ⟨j, hj⟩ := h.inFlight op (List.mem_of_mem_eraseIdx hop) hkind
    refine ⟨j, ?_⟩
    show (p.store.htmlCompleted i t)._uids = some j
    unfold ADZStoreMsgToCoreData.htmlCompleted
    split
    · exact hj
    · simpa using hj
  | dicCached =>
    exact ⟨h.store.dicCached, fun op hop hk => by simpa using h.inFlight op hop hk⟩
  | setImapSession σ => exact ⟨⟨h.store.context, h.store.uids, h.store.cached⟩, h.inFlight⟩
  | setDelegate d => exact ⟨⟨h.store.context, h.store.uids, h.store.cached⟩, h.inFlight⟩
  | restart => exact indexed_init h.store.context.restart

theorem indexed_of_run {C : Process τ → Action τ → Prop} {p₀ : Process τ} {h : List (Event τ)}
    (hr : (storeSystem τ).RunWhere C p₀ h p) (h₀ : p₀.Indexed) : p.Indexed :=
  hr.invariant_state h₀ fun _ _ _ _ hp _ hs => hp.step (storeStep_of_next hs)

end Process

/-- **The index and the rows agree in the database.**  In every state of every run from the empty
database, the uids recorded in the committed `UIDS` row are those of the committed `SUMMARY`
rows, every `SUMMARY` row reads back with a text, and there is at most one `UIDS` row. -/
theorem index_agrees {p : Process τ} {h : List (Event τ)} {σ₀ : Option MCOIMAPSession}
    (hr : (storeSystem τ).Run (.init .empty σ₀) h p) :
    (∀ k, (∃ r ∈ p.store.managedObjectContext.uids.rows, k ∈ uidTokens (some r.szUids)) ↔
      ∃ r ∈ p.store.managedObjectContext.summaries.rows, r.szUid = k) ∧
    (∀ r ∈ p.store.managedObjectContext.summaries.rows,
      (SUMMARY.load r).szPlaintext.isSome = true) ∧
    p.store.managedObjectContext.uids.rows.length ≤ 1 := by
  have hp := (Process.indexed_of_run hr
    (Process.indexed_init NSManagedObjectContext.indexed_empty)).store.context
  exact ⟨hp.agree, fun _ _ => rfl, (List.length_filterMap_le _ _).trans hp.single⟩

theorem index_agrees_mail5 :
    ∃ h p, (storeSystem String).Run (.init .empty (some (account "first"))) h p ∧
      h.map Prod.fst = [.searchPlaintextOfMsg .insertion (some (mail 5)),
        .complete 0 (some "hello")] ∧
      (∃ r ∈ p.store.managedObjectContext.summaries.rows, r.szUid = "5".toList) ∧
      ∃ r ∈ p.store.managedObjectContext.uids.rows, "5".toList ∈ uidTokens (some r.szUids) := by
  obtain ⟨h, p, hr, hactions, hrow, hagrees⟩ := (storeSystem String).exists_run_of_actions
    (fun _ _ => True) (.init .empty (some (account "first")))
    [.searchPlaintextOfMsg .insertion (some (mail 5)), .complete 0 (some "hello")]
    (P := fun _ p => ∃ r ∈ p.store.managedObjectContext.summaries.rows, r.szUid = "5".toList)
    (by decide) fun _ _ hr => (index_agrees hr).1 "5".toList
  exact ⟨h, p, hr, hactions, hrow, hagrees.2 hrow⟩

/-! ### Starved messages -/

namespace ADZStoreMsgToCoreData

variable {s : ADZStoreMsgToCoreData τ} {order : FetchOrders} {m : MCOIMAPMessage} {r : Reply τ}

/-- The search answers, or has the text of `m` rendered. -/
def Serves (r : Reply τ) (m : MCOIMAPMessage) : Prop :=
  r.returned.isSome = true ∨ ∃ σ i, r.started = some (.plainTextBody m σ i)

/-- One of two searches in a row serves `m`. -/
def ServedTwice (s : ADZStoreMsgToCoreData τ) (order₁ order₂ : FetchOrders)
    (m : MCOIMAPMessage) : Prop :=
  Serves (s.searchPlaintextOfMsg order₁ (some m)) m ∨
    Serves ((s.searchPlaintextOfMsg order₁ (some m)).store.searchPlaintextOfMsg order₂ (some m)) m

/-- The test of the index, in terms of the recorded uids. -/
theorem Indexed.containsString_iff (h : s.Indexed) :
    containsString (s.dicCached.uids order).szUids m.szUid = true ↔
      ∃ w ∈ uidTokens s.managedObjectContext.szUids, m.szUid <:+: w := by
  obtain ⟨hu, ⟨j, hj⟩, hsz⟩ := h.dicCached.getUids order
  rw [SecMail.containsString_iff, (hu.szUids hj).2, hsz, dicCached_managedObjectContext]

/-- A uid without an object that occurs in a recorded one is found missing. -/
theorem PlaintextSearch.eq_missing (hr : PlaintextSearch s order m r) (h : s.Indexed)
    (hm : ¬ s.managedObjectContext.HasSummary m.szUid)
    (hw : ∃ w ∈ uidTokens s.managedObjectContext.szUids, m.szUid <:+: w) :
    r = ⟨none, s.dicCached.uids order, none⟩ := by
  have hcached : ∀ item, s.dicCached.cached m.szUid ≠ some item :=
    fun item hc => hm (h.cached _ item (cached_of_dicCached hc))
  cases hr with
  | cached hc => exact absurd hc (hcached _)
  | dropped hc => exact absurd hc (hcached _)
  | missing => rfl
  | retried hc hl ho hk => exact absurd ⟨_, _, ho, hk⟩ hm
  | stored hc hl ho hk => exact absurd ⟨_, _, ho, hk⟩ hm
  | inserted hc hl =>
    rw [h.containsString_iff.2 hw] at hl
    cases hl

/-- A search serves its message, or drops an empty cache item. -/
theorem PlaintextSearch.serves (hr : PlaintextSearch s order m r) (h : s.Indexed)
    {σ : MCOIMAPSession} (hσ : s.imapSession = some σ)
    (hm : s.managedObjectContext.HasSummary m.szUid ∨
      ∀ w ∈ uidTokens s.managedObjectContext.szUids, ¬ m.szUid <:+: w) :
    Serves r m ∨ (s.managedObjectContext.HasSummary m.szUid ∧
      (∃ item, s.cached m.szUid = some item) ∧ r.store = s.dicCached.removeCached m.szUid) := by
  cases hr with
  | cached => exact .inl (.inl rfl)
  | dropped hc =>
    have hc := cached_of_dicCached hc
    exact .inr ⟨h.cached _ _ hc, ⟨_, hc⟩, rfl⟩
  | missing hc hl hnone =>
    obtain ⟨w, hw, hin⟩ := h.containsString_iff.1 hl
    rcases hm with ⟨i, o, ho, hk⟩ | hm
    · exact absurd hk (hnone i o ho)
    · exact absurd hin (hm w hw)
  | @retried i => exact .inl (.inr ⟨σ, i, by simp [setPlaintext, hσ]⟩)
  | stored => exact .inl (.inl rfl)
  | inserted => exact .inl (.inr ⟨σ, s.managedObjectContext.summaries.length,
      by simp [setPlaintext, hσ]⟩)

theorem Indexed.servedTwice_iff (h : s.Indexed) {σ : MCOIMAPSession}
    (hσ : s.imapSession = some σ) (order₁ order₂ : FetchOrders) (m : MCOIMAPMessage) :
    s.ServedTwice order₁ order₂ m ↔ s.managedObjectContext.HasSummary m.szUid ∨
      ∀ w ∈ uidTokens s.managedObjectContext.szUids, ¬ m.szUid <:+: w := by
  have h₁ := s.searchPlaintextOfMsg_cases order₁ m
  unfold ServedTwice
  generalize s.searchPlaintextOfMsg order₁ (some m) = r₁ at h₁ ⊢
  have h₂ := r₁.store.searchPlaintextOfMsg_cases order₂ m
  generalize r₁.store.searchPlaintextOfMsg order₂ (some m) = r₂ at h₂ ⊢
  constructor
  · intro hserved
    by_contra hcond
    push Not at hcond
    obtain ⟨hm, hw⟩ := hcond
    -- both searches find the uid in the index, and no object for it
    have hr₁ := h₁.eq_missing h hm hw
    subst hr₁
    obtain ⟨hu, -, hsz⟩ := h.dicCached.getUids order₁
    have hr₂ := h₂.eq_missing hu (by simpa [NSManagedObjectContext.HasSummary] using hm)
      (by rw [hsz, dicCached_managedObjectContext]; exact hw)
    subst hr₂
    simp [Serves] at hserved
  · intro hm
    rcases h₁.serves h hσ hm with hserved | ⟨hm, -, hstore⟩
    · exact .inl hserved
    right
    rw [hstore] at h₂
    have hctx : (s.dicCached.removeCached m.szUid).managedObjectContext = s.managedObjectContext :=
      dicCached_managedObjectContext
    have hσ' : (s.dicCached.removeCached m.szUid).imapSession = some σ :=
      dicCached_imapSession.trans hσ
    -- the first search dropped the item, so the second one does not find it
    rcases h₂.serves (h.dicCached.removeCached _) hσ' (.inl (hctx ▸ hm)) with
      hserved | ⟨-, ⟨item, hc⟩, -⟩
    · exact hserved
    · exact absurd rfl (cached_removeCached hc).1

end ADZStoreMsgToCoreData

/-- **Who is starved of a preview.**  In every state reached from the empty database, one of two
searches in a row for `m` answers or starts a rendering exactly when `m` has a `SUMMARY` object
or its uid occurs in no recorded uid. -/
theorem served_iff {p : Process τ} {h : List (Event τ)} {σ₀ : Option MCOIMAPSession}
    (hr : (storeSystem τ).Run (.init .empty σ₀) h p) {σ : MCOIMAPSession}
    (hσ : p.store.imapSession = some σ) (order₁ order₂ : FetchOrders) (m : MCOIMAPMessage) :
    p.store.ServedTwice order₁ order₂ m ↔
      p.store.managedObjectContext.HasSummary m.szUid ∨
        ∀ w ∈ uidTokens p.store.managedObjectContext.szUids, ¬ m.szUid <:+: w :=
  (Process.indexed_of_run hr
    (Process.indexed_init NSManagedObjectContext.indexed_empty)).store.servedTwice_iff
      hσ order₁ order₂ m

theorem served_iff_mail15 :
    ∃ h p, (storeSystem String).Run (.init .empty (some (account "first"))) h p ∧
      h.map Prod.fst = [.searchPlaintextOfMsg .insertion (some (mail 15)), .complete 0 none] ∧
      p.store.ServedTwice .insertion .insertion (mail 15) := by
  obtain ⟨h, p, hr, hactions, ⟨hσ, hm⟩, hiff⟩ := (storeSystem String).exists_run_of_actions
    (fun _ _ => True) (.init .empty (some (account "first")))
    [.searchPlaintextOfMsg .insertion (some (mail 15)), .complete 0 none]
    (P := fun _ p => p.store.imapSession = some (account "first") ∧
      (p.store.managedObjectContext.summaries.object 0).map ADZMessageSummary.szUid =
        some (mail 15).szUid)
    (by decide) fun _ p hr (hσ : p.store.imapSession = some (account "first")) =>
      served_iff hr hσ .insertion .insertion (mail 15)
  obtain ⟨o, ho, hk⟩ := Option.map_eq_some_iff.1 hm
  exact ⟨h, p, hr, hactions, (hiff hσ).2 (.inl ⟨0, o, ho, hk⟩)⟩

/-- After the message 15 was rendered, the message 5 is taken for recorded: it is never asked
for, and never rendered. -/
theorem not_served :
    ¬ ∀ (σ₀ : Option MCOIMAPSession) (h : List (Event String)) (p : Process String)
      (σ : MCOIMAPSession) (order₁ order₂ : FetchOrders) (m : MCOIMAPMessage),
      (storeSystem String).Run (.init .empty σ₀) h p → p.store.imapSession = some σ →
      (∀ op ∈ p.inFlight, op.kind = .plaintext → op.msg.szUid ≠ m.szUid) →
      p.store.ServedTwice order₁ order₂ m := by
  intro hall
  obtain ⟨h, p, hr, hσ, hop, h₁, h₂⟩ := (storeSystem String).exists_run_of_exec (fun _ _ => True)
    (.init .empty (some (account "first")))
    [.searchPlaintextOfMsg .insertion (some (mail 15)), .complete 0 (some "hello")]
    (fun _ p => p.store.imapSession = some (account "first") ∧ p.inFlight = [] ∧
      (let r := p.store.searchPlaintextOfMsg .insertion (some (mail 5))
      (r.returned = none ∧ r.started = none) ∧
        let r := r.store.searchPlaintextOfMsg .insertion (some (mail 5))
        r.returned = none ∧ r.started = none))
    (by decide)
  have hserved := hall _ h p _ .insertion .insertion (mail 5) hr hσ (by simp [hop])
  simp [ADZStoreMsgToCoreData.ServedTwice, ADZStoreMsgToCoreData.Serves, h₁, h₂] at hserved

end SecMail
