import SecMail.Store.Step

/-!
# The offline list

When an account check fails, the controller lists the summaries in the database.
`searchAllSummaryOfMsg` makes a dictionary literal of each `SUMMARY` object, and a dictionary
literal with a value `nil` raises an exception; but an object has no plain text until its rendering
has succeeded, and no subject if its message has none.

* `offlineSystem` is the store with the calls of `searchAllSummaryOfMsg` in view;
* `offline_list_iff` : every call returns, with the summaries that have a plain text, by
  descending date, exactly if it is made while every `SUMMARY` object is complete;
* `not_offline_list` : a call while a message is being rendered.
-/

namespace SecMail

variable {τ : Type*}

/-! ### Entries -/

namespace ADZMessageSummary

/-- The subject and the plain text are set. -/
def Complete (o : ADZMessageSummary τ) : Prop :=
  o.szSubject.isSome = true ∧ o.szPlaintext.isSome = true

instance (o : ADZMessageSummary τ) : Decidable o.Complete := inferInstanceAs (Decidable (_ ∧ _))

/-- The dictionary literal of an object, `none` if it raises an exception. -/
def dictionary (o : ADZMessageSummary τ) : Option (SummaryDictionary τ) :=
  match o.szSubject, o.szPlaintext with
  | some szSubject, some szPlaintext => some ⟨o.szUid, szSubject, szPlaintext⟩
  | _, _ => none

variable {o : ADZMessageSummary τ} {d : SummaryDictionary τ}

theorem dictionary_eq_some : o.dictionary = some d ↔
    o.szUid = d.szUid ∧ o.szSubject = some d.szSubject ∧ o.szPlaintext = some d.szPlaintext := by
  rcases o with ⟨u, _ | s, date, _ | t⟩ <;> cases d <;> simp [dictionary]

theorem complete_iff : o.Complete ↔ ∃ d, o.dictionary = some d := by
  rcases o with ⟨u, _ | s, date, _ | t⟩ <;> simp [Complete, dictionary]

end ADZMessageSummary

/-- The entry shows the object, and its subject if it has one. -/
structure SummaryDictionary.Describes (d : SummaryDictionary τ) (o : ADZMessageSummary τ) :
    Prop where
  szUid : d.szUid = o.szUid
  szSubject : ∀ szSubject ∈ o.szSubject, d.szSubject = szSubject
  szPlaintext : o.szPlaintext = some d.szPlaintext

/-- A call of `searchAllSummaryOfMsg`: the `SUMMARY` objects, and what it returned, `none` if it
raised an exception. -/
structure Listing (τ : Type*) where
  objects : List (ADZMessageSummary τ)
  returned : Option (List (SummaryDictionary τ))

/-- The call returned one entry for each object that has a plain text, by descending date. -/
def Listing.Exact (l : Listing τ) : Prop :=
  ∃ aryMsgs os, l.returned = some aryMsgs ∧
    os.Perm (l.objects.filter fun o => o.szPlaintext.isSome) ∧
    os.Pairwise (fun o o' => notEarlier o.date o'.date = true) ∧
    List.Forall₂ SummaryDictionary.Describes aryMsgs os

/-! ### One call -/

instance : Std.Total (fun o o' : ADZMessageSummary τ => notEarlier o.date o'.date = true) :=
  ⟨fun o o' => notEarlier_total o.date o'.date⟩

instance : IsTrans (ADZMessageSummary τ) (fun o o' => notEarlier o.date o'.date = true) :=
  ⟨fun _ _ _ h h' => notEarlier_trans h h'⟩

namespace ADZStoreMsgToCoreData

variable (s : ADZStoreMsgToCoreData τ) (order : FetchOrder)

/-- The call. -/
def listing : Listing τ :=
  ⟨s.managedObjectContext.summaries.objects, s.searchAllSummaryOfMsg order⟩

/-- The objects by descending date. -/
def aryFinds : List (ADZMessageSummary τ) :=
  ((order.list (s.managedObjectContext.summaries.fetch fun _ => true)).filterMap
    s.managedObjectContext.summaries.object).insertionSort
      fun o o' => notEarlier o.date o'.date = true

theorem searchAllSummaryOfMsg_eq :
    s.searchAllSummaryOfMsg order = (s.aryFinds order).mapM ADZMessageSummary.dictionary := rfl

theorem perm_aryFinds : (s.aryFinds order).Perm s.managedObjectContext.summaries.objects := by
  have hperm := Table.perm_filterMap_object (t := s.managedObjectContext.summaries)
    (p := fun _ => true) order
  rw [List.filter_true] at hperm
  exact (List.perm_insertionSort _ _).trans hperm

/-- A call is exact exactly if every object is complete. -/
theorem listing_exact_iff : (s.listing order).Exact ↔
    ∀ o ∈ s.managedObjectContext.summaries.objects, o.Complete := by
  have hmem : ∀ o, o ∈ s.aryFinds order ↔ o ∈ s.managedObjectContext.summaries.objects :=
    fun o => (s.perm_aryFinds order).mem_iff
  constructor
  · rintro ⟨aryMsgs, os, hreturned, -, -, -⟩ o ho
    rw [listing, searchAllSummaryOfMsg_eq] at hreturned
    exact ADZMessageSummary.complete_iff.2
      (exists_mapM_iff.1 ⟨aryMsgs, hreturned⟩ o ((hmem o).2 ho))
  · intro hcomplete
    obtain ⟨aryMsgs, hary⟩ := exists_mapM_iff.2 fun o ho =>
      ADZMessageSummary.complete_iff.1 (hcomplete o ((hmem o).1 ho))
    have hall : s.managedObjectContext.summaries.objects.filter (fun o => o.szPlaintext.isSome) =
        s.managedObjectContext.summaries.objects :=
      List.filter_eq_self.2 fun o ho => (hcomplete o ho).2
    refine ⟨aryMsgs, s.aryFinds order, hary, ?_, List.pairwise_insertionSort _ _, ?_⟩
    · show (s.aryFinds order).Perm (s.managedObjectContext.summaries.objects.filter _)
      rw [hall]
      exact s.perm_aryFinds order
    · refine (forall₂_of_mapM hary).flip.imp fun d o hd => ?_
      obtain ⟨hu, hs, ht⟩ := ADZMessageSummary.dictionary_eq_some.1 hd
      refine ⟨hu.symm, fun szSubject hsome => ?_, ht⟩
      exact Option.some.inj (hs.symm.trans hsome)

end ADZStoreMsgToCoreData

/-! ### Runs -/

/-- What can happen to the store of the offline list. -/
inductive OfflineAction (τ : Type*)
  | searchAllSummaryOfMsg (order : FetchOrder)
  /-- The store does something else. -/
  | store (action : Action τ)

/-- The store as a transition system that shows the calls of `searchAllSummaryOfMsg`. -/
def offlineSystem (τ : Type*) : System (Process τ) (OfflineAction τ) (Option (Listing τ)) where
  next p
    | .searchAllSummaryOfMsg order => some (p, some (p.store.listing order))
    | .store a => ((storeSystem τ).next p a).map fun r => (r.1, none)

/-- The condition on a step: a call is made while every `SUMMARY` object is complete. -/
def Process.ListsComplete (p : Process τ) : OfflineAction τ → Prop
  | .searchAllSummaryOfMsg _ =>
    ∀ o ∈ p.store.managedObjectContext.summaries.objects, o.Complete
  | .store _ => True

instance (p : Process τ) : (a : OfflineAction τ) → Decidable (p.ListsComplete a)
  | .searchAllSummaryOfMsg _ => inferInstanceAs
    (Decidable (∀ o ∈ p.store.managedObjectContext.summaries.objects, o.Complete))
  | .store _ => isTrue trivial

/-- Every call of a history is exact. -/
def ListedExactly (h : List (OfflineAction τ × Option (Listing τ))) : Prop :=
  ∀ e ∈ h, ∀ l ∈ e.2, l.Exact

/-- **The offline list can be built** by every call in a run exactly if every call is made while
the `SUMMARY` objects are complete. -/
theorem offline_list_iff {c : NSManagedObjectContext τ} {σ : Option MCOIMAPSession}
    {p : Process τ} {h : List (OfflineAction τ × Option (Listing τ))}
    (hr : (offlineSystem τ).Run (.init c σ) h p) :
    (offlineSystem τ).Along (fun h _ => ListedExactly h) (.init c σ) h ↔
      (offlineSystem τ).RunWhere Process.ListsComplete (.init c σ) h p := by
  refine hr.along_forall_iff fun p a o p' _ hs => ?_
  cases a with
  | searchAllSummaryOfMsg order =>
    cases hs
    rw [show p.ListsComplete (.searchAllSummaryOfMsg order) ↔ _ from
      (p.store.listing_exact_iff order).symm]
    refine ⟨fun hl l hmem => ?_, fun hall => hall _ rfl⟩
    cases hmem
    exact hl
  | store a =>
    obtain ⟨r, -, heq⟩ := Option.map_eq_some_iff.1 hs
    cases heq
    exact ⟨fun _ _ hmem => absurd hmem (by simp), fun _ => trivial⟩

theorem offline_list_two :
    ∃ h p, (offlineSystem String).Run (.init .empty (some (account "first"))) h p ∧
      h.map Prod.fst = [.store (.searchPlaintextOfMsg .insertion (some (mail 1))),
        .store (.searchPlaintextOfMsg .insertion (some (mail 2))),
        .store (.complete 1 (some "second")), .store (.complete 0 (some "first")),
        .searchAllSummaryOfMsg .reverse, .store .restart, .searchAllSummaryOfMsg .insertion] ∧
      (h.filterMap Prod.snd).map (fun l => l.returned.map List.length) = [some 2, some 2] ∧
      (offlineSystem String).Along (fun h _ => ListedExactly h)
        (.init .empty (some (account "first"))) h :=
  (offlineSystem String).exists_run_of_actions Process.ListsComplete _ _ (by decide +kernel)
    fun _ _ hr => (offline_list_iff hr.run).2 hr

/-- A message is being rendered when the list is asked for. -/
theorem not_offline_list :
    ¬ ∀ (h : List (OfflineAction String × Option (Listing String))) (p : Process String),
      (offlineSystem String).Run (.init .empty (some (account "first"))) h p →
        ListedExactly h := by
  intro hall
  obtain ⟨h, p, hr, hl⟩ := (offlineSystem String).exists_run_of_exec (fun _ _ => True)
    (.init .empty (some (account "first")))
    [.store (.searchPlaintextOfMsg .insertion (some (mail 1))),
      .searchAllSummaryOfMsg .insertion]
    (fun h _ => ((h.filterMap Prod.snd).map Listing.returned) = [none]) (by decide +kernel)
  obtain ⟨l, hl, hreturned⟩ := List.map_eq_singleton_iff.1 hl
  obtain ⟨e, he, hsome⟩ := List.mem_filterMap.1 (hl ▸ List.mem_singleton_self l)
  obtain ⟨aryMsgs, os, hary, -⟩ := hall h p hr e he l hsome
  rw [hreturned] at hary
  cases hary

end SecMail
