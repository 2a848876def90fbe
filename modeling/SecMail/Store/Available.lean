import SecMail.Store.Vouched

/-!
# Available texts

Once a text was rendered for a uid, is it there for every later search?  It is lost when a failed
rendering overwrites it with `nil`, and when the cache forgets it while the uid is divided.

* `Process.Lasting` is the invariant of the runs of one process;
* `texts_available_iff` : the runs in which rendered texts stay available are those in which no
  rendering fails for a uid with a text, and the cache forgets no divided uid;
* `not_texts_available` : a second rendering that fails takes back the text of the first.
-/

namespace SecMail

variable {τ : Type*}

/-! ### Runs of one process -/

/-- The actions of one process. -/
def Action.InProcess : Action τ → Prop
  | .restart => False
  | _ => True

instance : (a : Action τ) → Decidable a.InProcess
  | .restart => isFalse id
  | .searchPlaintextOfMsg .. => isTrue trivial
  | .searchHtmlOfMsg .. => isTrue trivial
  | .complete .. => isTrue trivial
  | .dicCached => isTrue trivial
  | .setImapSession _ => isTrue trivial
  | .setDelegate _ => isTrue trivial

namespace Process

variable {p p' : Process τ} {a : Action τ} {o : Observation τ} {h : List (Event τ)}

/-- The condition on a step: no rendering fails for a uid with a text, and the cache forgets no
divided uid. -/
def KeepsTexts (p : Process τ) : Action τ → Prop
  | .searchPlaintextOfMsg order m => ∀ m' ∈ m, ∀ kind k,
    p.store.managedObjectContext.Divided kind k → ¬ p.store.Forgets order m' kind k
  | .complete j result => ∀ op ∈ p.inFlight[j]?, op.KeepsTexts p.store result
  | .dicCached => ∀ k, p.store.managedObjectContext.Divided .html k → p.store.overfull = false
  | _ => True

instance [DecidableEq τ] (p : Process τ) : (a : Action τ) → Decidable (p.KeepsTexts a)
  | .searchPlaintextOfMsg order m => inferInstanceAs (Decidable (∀ m' ∈ m, ∀ kind k,
      p.store.managedObjectContext.Divided kind k → ¬ p.store.Forgets order m' kind k))
  | .complete j result =>
    inferInstanceAs (Decidable (∀ op ∈ p.inFlight[j]?, op.KeepsTexts p.store result))
  | .dicCached => inferInstanceAs (Decidable (∀ k,
      p.store.managedObjectContext.Divided .html k → p.store.overfull = false))
  | .searchHtmlOfMsg .. => isTrue trivial
  | .setImapSession _ => isTrue trivial
  | .setDelegate _ => isTrue trivial
  | .restart => isTrue trivial

/-- A text of the kind was delivered for `k`. -/
def DeliveredFor (h : List (Event τ)) (kind : Kind) (k : NSString) : Prop :=
  ∃ op t, Delivered h op t ∧ op.kind = kind ∧ op.msg.szUid = k

/-- The invariant of a process that keeps its texts.  A text that was not delivered was loaded from
the database; then all objects for its uid have their texts, and none is being rendered. -/
structure Lasting (h : List (Event τ)) (p : Process τ) : Prop where
  indexed : p.Indexed
  linked : p.Linked
  vouched : p.store.Vouched
  hasText : ∀ op t, Delivered h op t → p.store.managedObjectContext.HasText op.kind op.msg.szUid
  loaded : ∀ kind k, p.store.managedObjectContext.HasText kind k → DeliveredFor h kind k ∨
    (¬ p.store.managedObjectContext.Lacks kind k ∧
      ∀ op ∈ p.inFlight, op.kind = kind → op.msg.szUid ≠ k)

theorem DeliveredFor.snoc {kind : Kind} {k : NSString} (hd : DeliveredFor h kind k) :
    DeliveredFor (h ++ [(a, o)]) kind k := by
  obtain ⟨op, t, hd, hkind, hk⟩ := hd
  exact ⟨op, t, hd.snoc, hkind, hk⟩

/-- A divided uid, or one that is being rendered, has its text from this process. -/
theorem Lasting.delivered_of_divided (hp : p.Lasting h) {kind : Kind} {k : NSString}
    (hd : p.store.managedObjectContext.Divided kind k) : DeliveredFor h kind k := by
  rcases hp.loaded kind k hd.1 with hdel | ⟨hlack, -⟩
  · exact hdel
  · exact absurd hd.2 hlack

theorem lasting_init {c : NSManagedObjectContext τ} (hc : c.Indexed) :
    (init c.restart none).Lasting [] := by
  have hnot : ∀ kind k, ¬ c.restart.Divided kind k :=
    fun kind k h => NSManagedObjectContext.not_lacks_restart h.2
  refine ⟨indexed_init hc.restart, linked_init _ _, ⟨fun k h => absurd h (hnot _ k),
    fun k item _ hcached => (by cases hcached), fun k h => absurd h (hnot _ k)⟩, ?_, ?_⟩
  · rintro op t ⟨k, d, hmem⟩
    cases hmem
  · exact fun kind k _ => .inr ⟨NSManagedObjectContext.not_lacks_restart, by simp [init]⟩

/-- A search keeps the invariant, if the cache still vouches. -/
theorem Lasting.reply {r : Reply τ} (hp : p.Lasting h) (hi : (p.reply r).1.Indexed)
    (hl : (p.reply r).1.Linked) (hv : r.store.Vouched) (hr : p.store.Adds r)
    (ho : ∀ op d, o ≠ .completed op d) : (p.reply r).1.Lasting (h ++ [(a, o)]) := by
  refine ⟨hi, hl, hv, fun op t hd => ?_, fun kind k ht => ?_⟩
  · rcases delivered_snoc hd with hd | ⟨j, d, -, heq⟩
    · exact (hr.hasText _ _).2 (hp.hasText op t hd)
    · exact absurd heq (ho op d)
  · rcases hp.loaded kind k ((hr.hasText _ _).1 ht) with hd | ⟨hlack, hflight⟩
    · exact .inl hd.snoc
    · have hlack' : ¬ r.store.managedObjectContext.Lacks kind k := by
        intro h'
        rcases hr.lacks kind k h' with h' | h'
        · exact hlack h'
        · exact h' ((hr.hasText _ _).1 ht)
      refine .inr ⟨hlack', fun op hop hkind hk => ?_⟩
      rcases List.mem_append.1 hop with hop | hop
      · exact hflight op hop hkind hk
      · refine hlack' ?_
        rw [← hkind, ← hk]
        exact hr.started op (Option.mem_toList.1 hop)

theorem Lasting.complete {j : ℕ} {op : RenderingOp τ} {result : Option τ} {d : Option ℕ}
    {store : ADZStoreMsgToCoreData τ} (hp : p.Lasting h) (hk : p.inFlight[j]? = some op)
    (hc : op.complete p.store result = some store) (hC : op.KeepsTexts p.store result)
    (hi : (p.finish j store).Indexed) (hl : (p.finish j store).Linked) :
    (p.finish j store).Lasting (h ++ [(.complete j result, .completed op d)]) := by
  have hop : op.Linked p.store.managedObjectContext := hp.linked op (List.mem_of_getElem? hk)
  have hctx := RenderingOp.complete_managedObjectContext hop hc
  have htexts : ∀ kind,
      store.managedObjectContext.texts kind = (op.fill p.store result).texts kind := by
    intro kind
    rw [hctx, NSManagedObjectContext.texts_save]
  have hself : ∀ t, result = some t →
      DeliveredFor (h ++ [(.complete j result, .completed op d)]) op.kind op.msg.szUid := by
    rintro t rfl
    exact ⟨op, t, ⟨j, d, by simp⟩, rfl, rfl⟩
  refine ⟨hi, hl, RenderingOp.vouched_complete hp.vouched hop hC hc, fun op' t hd => ?_,
    fun kind k ht => ?_⟩
  · have ht : ∃ t, (op'.msg.szUid, some t) ∈ (op.fill p.store result).texts op'.kind := by
      rcases delivered_snoc hd with hd | ⟨j', d', ha, heq⟩
      · obtain ⟨t', ht'⟩ := hp.hasText op' t hd
        by_cases hsame : op'.kind = op.kind ∧ op'.msg.szUid = op.msg.szUid
        · rw [hsame.1, hsame.2] at ht' ⊢
          cases result with
          | none => exact absurd ⟨t', ht'⟩ (hC.1 rfl)
          | some t => exact ⟨t, RenderingOp.mem_texts_fill_self hop⟩
        · exact ⟨t', RenderingOp.mem_texts_fill_of_ne hop ht' hsame⟩
      · cases ha
        cases heq
        exact ⟨t, RenderingOp.mem_texts_fill_self hop⟩
    obtain ⟨t, ht⟩ := ht
    refine ⟨t, ?_⟩
    show _ ∈ store.managedObjectContext.texts _
    rwa [htexts]
  · have ht : (op.fill p.store result).HasText kind k := by
      obtain ⟨t, ht⟩ := ht
      exact ⟨t, htexts kind ▸ ht⟩
    by_cases hsame : kind = op.kind ∧ k = op.msg.szUid
    · obtain ⟨rfl, rfl⟩ := hsame
      obtain ⟨t, ht⟩ := Option.isSome_iff_exists.1 (RenderingOp.isSome_of_hasText hop hC.1 ht)
      exact .inl (hself t ht)
    · rcases hp.loaded kind k (RenderingOp.hasText_of_fill hop hsame ht) with hd | ⟨hlack, hflight⟩
      · exact .inl hd.snoc
      · refine .inr ⟨fun h' => ?_, fun op' hop' => hflight op' (List.mem_of_mem_eraseIdx hop')⟩
        have h' : (k, none) ∈ (op.fill p.store result).texts kind := htexts kind ▸ h'
        rcases RenderingOp.mem_texts_fill hop h' with ⟨hkind, hkey, -⟩ | h'
        · exact hsame ⟨hkind, hkey⟩
        · exact hlack h'

/-- Steps that meet the condition keep the invariant. -/
theorem Lasting.step (hp : p.Lasting h) (hC : p.KeepsTexts a) (ha : a.InProcess)
    (hs : (storeSystem τ).next p a = some (p', o)) : p'.Lasting (h ++ [(a, o)]) := by
  have hi := hp.indexed.step (storeStep_of_next hs)
  have hl := hp.linked.step (storeStep_of_next hs)
  -- an action that changes no text and starts nothing
  have hsame : ∀ p₁ : Process τ, p₁.Indexed → p₁.Linked → p₁.store.Vouched →
      p₁.store.managedObjectContext = p.store.managedObjectContext → p₁.inFlight = p.inFlight →
      (∀ op d, o ≠ .completed op d) → p₁.Lasting (h ++ [(a, o)]) := by
    intro p₁ hi hl hv hctx hflight ho
    refine ⟨hi, hl, hv, fun op t hd => ?_, fun kind k ht => ?_⟩
    · rcases delivered_snoc hd with hd | ⟨j, d, -, heq⟩
      · rw [hctx]
        exact hp.hasText op t hd
      · exact absurd heq (ho op d)
    · rw [hctx] at ht
      rw [hctx, hflight]
      exact (hp.loaded kind k ht).imp DeliveredFor.snoc id
  cases a with
  | searchPlaintextOfMsg order m =>
    cases hs
    cases m with
    | none => exact hsame _ hi hl hp.vouched rfl (List.append_nil _) (by simp)
    | some m =>
      exact hp.reply hi hl (hp.vouched.searchPlaintextOfMsg hp.indexed.store order m (hC m rfl))
        ((p.store.searchPlaintextOfMsg_cases order m).adds hp.indexed.store) (by simp)
  | searchHtmlOfMsg order msg =>
    cases hs
    cases msg with
    | none => exact hsame _ hi hl hp.vouched rfl (List.append_nil _) (by simp)
    | some msg =>
      exact hp.reply hi hl (hp.vouched.searchHtmlOfMsg order msg)
        (p.store.adds_searchHtmlOfMsg order msg) (by simp)
  | complete j result =>
    obtain ⟨op, hop, hs⟩ := Option.bind_eq_some_iff.1 hs
    obtain ⟨store, hc, hs⟩ := Option.map_eq_some_iff.1 hs
    cases hs
    exact hp.complete hop hc (hC op hop) hi hl
  | dicCached =>
    cases hs
    exact hsame _ hi hl (hp.vouched.dicCached hC)
      ADZStoreMsgToCoreData.dicCached_managedObjectContext rfl (by simp)
  | setImapSession σ =>
    cases hs
    exact hsame _ hi hl (hp.vouched.congr (fun _ => rfl) rfl) rfl rfl (by simp)
  | setDelegate d =>
    cases hs
    exact hsame _ hi hl (hp.vouched.congr (fun _ => rfl) rfl) rfl rfl (by simp)
  | restart => exact absurd ha id

/-! ### The condition is necessary -/

/-- A delivered uid with an object that lacks its text is not available when the cache has no
text. -/
theorem DeliveredFor.not_available {s : ADZStoreMsgToCoreData τ} {kind : Kind} {k : NSString}
    (hd : DeliveredFor h kind k) (hlack : s.managedObjectContext.Lacks kind k)
    (hp : kind = .plaintext → s.dicCached.cached k = none)
    (hh : kind = .html → (s.cached k).bind ADZCached.szHtml = none) : ¬ s.Available kind k := by
  obtain ⟨op, t, -, rfl, rfl⟩ := hd
  cases op with
  | plainTextBody m σ i => exact ADZStoreMsgToCoreData.not_available_plaintext hlack (hp rfl)
  | html msg σ i => exact ADZStoreMsgToCoreData.not_available_html hlack (hh rfl)

/-- A search that makes the cache forget a divided uid leaves it unavailable. -/
theorem Lasting.not_forgets {order : FetchOrders} {m : MCOIMAPMessage} {kind : Kind}
    {k : NSString} (hp : p.Lasting h) (hd : p.store.managedObjectContext.Divided kind k)
    (hav : (p.store.searchPlaintextOfMsg order (some m)).store.Available kind k) :
    ¬ p.store.Forgets order m kind k := by
  intro hf
  have hr := p.store.searchPlaintextOfMsg_cases order m
  have hadds := hr.adds hp.indexed.store
  have hret : p.store.dicCached.cached m.szUid = none →
      containsString (p.store.dicCached.uids order).szUids m.szUid = true →
      (p.store.searchPlaintextOfMsg order (some m)).returned =
        p.store.storedPlaintext order m.szUid :=
    ADZStoreMsgToCoreData.returned_of_listed
  generalize p.store.searchPlaintextOfMsg order (some m) = r at hr hav hadds hret
  refine (hp.delivered_of_divided hd).not_available (hadds.keeps _ _ hd.2) (fun hkind => ?_)
    (fun hkind => ?_) hav
  · subst hkind
    obtain ⟨hc, hl, hstored, hroom⟩ := hf
    cases hr with
    | cached hc' => exact absurd (hc.symm.trans hc') (by simp)
    | dropped hc' => exact absurd (hc.symm.trans hc') (by simp)
    | missing =>
      rw [← hret hc hl] at hstored
      cases hstored
    | retried =>
      rw [← hret hc hl] at hstored
      cases hstored
    | stored =>
      refine ADZStoreMsgToCoreData.cached_setCached_of_not_hasRoom ?_
      simpa [ADZStoreMsgToCoreData.hasRoom] using hroom
    | inserted _ hl' => exact absurd (hl.symm.trans hl') (by simp)
  · subst hkind
    rcases hf with hover | ⟨hk, item, hitem, hx⟩
    · have hnone : ∀ k, p.store.dicCached.cached k = none :=
        fun k => ADZStoreMsgToCoreData.cached_dicCached_of_overfull hover
      cases hr with
      | cached hc => exact absurd ((hnone _).symm.trans hc) (by simp)
      | dropped hc => exact absurd ((hnone _).symm.trans hc) (by simp)
      | missing => rw [ADZStoreMsgToCoreData.uids_cached, hnone, Option.bind_none]
      | retried => rw [ADZStoreMsgToCoreData.uids_cached, hnone, Option.bind_none]
      | stored =>
        rw [ADZStoreMsgToCoreData.cached_setCached_eq]
        split_ifs
        · cases (p.store.dicCached.uids order)._dicCached <;> rfl
        · rw [ADZStoreMsgToCoreData.uids_cached, hnone, Option.bind_none]
      | inserted =>
        show ((p.store.dicCached.uids order).cached _).bind _ = none
        rw [ADZStoreMsgToCoreData.uids_cached, hnone, Option.bind_none]
    · cases hr with
      | cached hc ht =>
        cases hitem.symm.trans hc
        exact absurd (hx.symm.trans ht) (by simp)
      | dropped =>
        rw [hk, ADZStoreMsgToCoreData.cached, ADZStoreMsgToCoreData.removeCached]
        cases p.store.dicCached._dicCached <;> simp
      | missing hc => exact absurd (hc.symm.trans hitem) (by simp)
      | retried hc => exact absurd (hc.symm.trans hitem) (by simp)
      | stored hc => exact absurd (hc.symm.trans hitem) (by simp)
      | inserted hc => exact absurd (hc.symm.trans hitem) (by simp)

end Process

namespace RenderingOp

variable {s s' : ADZStoreMsgToCoreData τ} {op : RenderingOp τ} {result : Option τ}
  {kind : Kind} {k : NSString}

theorem lacks_of_complete (hl : op.Linked s.managedObjectContext)
    (hc : op.complete s result = some s') (h : (op.fill s result).Lacks kind k) :
    s'.managedObjectContext.Lacks kind k := by
  rwa [complete_managedObjectContext hl hc, NSManagedObjectContext.lacks_save]

/-- The uid of an operation that failed is not available. -/
theorem not_available_of_failed (hl : op.Linked s.managedObjectContext)
    (hc : op.complete s none = some s') : ¬ s'.Available op.kind op.msg.szUid := by
  have hlack := lacks_of_complete hl hc (mem_texts_fill_self hl)
  cases op with
  | plainTextBody m σ i =>
    obtain ⟨o, ho, hkey⟩ := hl
    cases hc
    rw [ADZStoreMsgToCoreData.plaintextCompleted_eq ho, hkey] at hlack ⊢
    cases hroom : s.hasRoom m.szUid with
    | false =>
      exact ADZStoreMsgToCoreData.not_available_plaintext hlack
        (ADZStoreMsgToCoreData.cached_setCached_of_not_hasRoom hroom)
    | true =>
      -- the new item has no text, and the next search drops it
      have hset : ({ s with managedObjectContext := (s.fillPlaintext i m.szUid none).save } :
        ADZStoreMsgToCoreData τ).hasRoom m.szUid = true := hroom
      obtain ⟨hover, hcached⟩ := ADZStoreMsgToCoreData.cached_setCached_of_hasRoom hset
      have hitem := (ADZStoreMsgToCoreData.cached_dicCached_of_not_overfull hover).trans
        ((hcached m.szUid).trans (if_pos rfl))
      exact ADZStoreMsgToCoreData.not_available_of_dropped hitem rfl
  | html msg σ i =>
    obtain ⟨o, ho, hkey⟩ := hl
    cases msg with
    | summary e => cases hc
    | imap m =>
      cases hc
      refine ADZStoreMsgToCoreData.not_available_html hlack ?_
      show ((s.htmlCompleted i none).cached (Msg.imap m).szUid).bind _ = none
      rw [ADZStoreMsgToCoreData.htmlCompleted_eq ho, hkey,
        ADZStoreMsgToCoreData.cached_setCachedHtml_eq, if_pos rfl, Option.bind_map]
      exact Option.bind_fun_none _

theorem cached_of_forgets_plaintext (hl : op.Linked s.managedObjectContext)
    (hc : op.complete s result = some s') (hf : op.Forgets s .plaintext k) :
    s'.dicCached.cached k = none := by
  cases op with
  | plainTextBody m σ i =>
    obtain ⟨o, ho, hkey⟩ := hl
    cases hc
    rw [ADZStoreMsgToCoreData.plaintextCompleted_eq ho, hkey]
    exact ADZStoreMsgToCoreData.cached_setCached_of_not_hasRoom hf
  | html => exact absurd hf id

theorem cached_of_forgets_html (hl : op.Linked s.managedObjectContext)
    (hc : op.complete s result = some s') (hf : op.Forgets s .html k) :
    (s'.cached k).bind ADZCached.szHtml = none := by
  cases op with
  | plainTextBody m σ i =>
    obtain ⟨o, ho, hkey⟩ := hl
    have hk : k = m.szUid := hf
    cases hc
    rw [ADZStoreMsgToCoreData.plaintextCompleted_eq ho, hkey,
      ADZStoreMsgToCoreData.cached_setCached_eq, if_pos hk]
    cases s._dicCached <;> rfl
  | html msg σ i =>
    obtain ⟨o, ho, hkey⟩ := hl
    obtain ⟨rfl, hnone⟩ := hf
    cases msg with
    | summary e => cases hc
    | imap m =>
      cases hc
      have hfilled : ({ s with managedObjectContext := (s.fillHtml i result).save } :
        ADZStoreMsgToCoreData τ).cached (Msg.imap m).szUid = none := hnone
      rw [ADZStoreMsgToCoreData.htmlCompleted_eq ho, hkey,
        ADZStoreMsgToCoreData.cached_setCachedHtml_eq, if_pos rfl, hfilled]
      rfl

end RenderingOp

namespace Process

variable {p p' : Process τ} {a : Action τ} {o : Observation τ} {h : List (Event τ)}

/-- A completion that leaves the delivered texts available meets the condition. -/
theorem Lasting.keepsTexts_complete {j : ℕ} {op : RenderingOp τ} {result : Option τ}
    {d : Option ℕ} {store : ADZStoreMsgToCoreData τ} (hp : p.Lasting h)
    (hk : p.inFlight[j]? = some op) (hc : op.complete p.store result = some store)
    (hav : ∀ kind k, DeliveredFor (h ++ [(.complete j result, .completed op d)]) kind k →
      store.Available kind k) : op.KeepsTexts p.store result := by
  have hmem := List.mem_of_getElem? hk
  have hop := hp.linked op hmem
  have hfail : result = none → ¬ p.store.managedObjectContext.HasText op.kind op.msg.szUid := by
    rintro rfl ht
    have hdel : DeliveredFor h op.kind op.msg.szUid := by
      rcases hp.loaded _ _ ht with hd | ⟨-, hflight⟩
      · exact hd
      · exact absurd rfl (hflight op hmem rfl)
    exact RenderingOp.not_available_of_failed hop hc (hav _ _ hdel.snoc)
  refine ⟨hfail, fun kind k hd hf => ?_⟩
  have hdel : DeliveredFor (h ++ [(.complete j result, .completed op d)]) kind k := by
    by_cases hsame : kind = op.kind ∧ k = op.msg.szUid
    · obtain ⟨rfl, rfl⟩ := hsame
      obtain ⟨t, rfl⟩ := Option.isSome_iff_exists.1 (RenderingOp.isSome_of_hasText hop hfail hd.1)
      exact ⟨op, t, ⟨j, d, by simp⟩, rfl, rfl⟩
    · exact (hp.delivered_of_divided (RenderingOp.divided_of_fill hop hsame hd)).snoc
  refine hdel.not_available (RenderingOp.lacks_of_complete hop hc hd.2) ?_ ?_ (hav _ _ hdel)
  · rintro rfl
    exact RenderingOp.cached_of_forgets_plaintext hop hc hf
  · rintro rfl
    exact RenderingOp.cached_of_forgets_html hop hc hf

/-- In every state all delivered texts are available. -/
def TextsAvailable (h : List (Event τ)) (p : Process τ) : Prop :=
  ∀ op t, Delivered h op t → p.store.Available op.kind op.msg.szUid

theorem Lasting.textsAvailable (hp : p.Lasting h) : TextsAvailable h p :=
  fun op t hd => hp.vouched.available hp.indexed.store (hp.hasText op t hd)

/-- A step leaves the delivered texts available only if it meets the condition. -/
theorem Lasting.keepsTexts (hp : p.Lasting h) (hs : (storeSystem τ).next p a = some (p', o))
    (hav : TextsAvailable (h ++ [(a, o)]) p') : p.KeepsTexts a := by
  have hav' : ∀ kind k, DeliveredFor (h ++ [(a, o)]) kind k → p'.store.Available kind k := by
    rintro kind k ⟨op, t, hd, rfl, rfl⟩
    exact hav op t hd
  cases a with
  | searchPlaintextOfMsg order m =>
    rintro m rfl kind k hd
    cases hs
    exact hp.not_forgets hd (hav' _ _ (hp.delivered_of_divided hd).snoc)
  | complete j result =>
    obtain ⟨op, hop, hs⟩ := Option.bind_eq_some_iff.1 hs
    obtain ⟨store, hc, hs⟩ := Option.map_eq_some_iff.1 hs
    cases hs
    intro op' hop'
    cases hop.symm.trans hop'
    exact hp.keepsTexts_complete hop hc hav'
  | dicCached =>
    cases hs
    intro k hd
    by_contra hover
    have hnone := ADZStoreMsgToCoreData.cached_dicCached_of_overfull (k := k)
      (Bool.not_eq_false _ ▸ hover)
    refine (hp.delivered_of_divided hd).not_available ?_ (fun hkind => by cases hkind) (fun _ => ?_)
      (hav' _ _ (hp.delivered_of_divided hd).snoc)
    · simpa using hd.2
    · show (p.store.dicCached.cached k).bind _ = none
      rw [hnone, Option.bind_none]
  | searchHtmlOfMsg order msg => trivial
  | setImapSession σ => trivial
  | setDelegate d => trivial
  | restart => trivial

end Process

/-- **Available text stays available.**  In a run of one process, started on the database of an
earlier run, all texts delivered so far are available in every state exactly if no rendering
fails for a uid with a text, and the cache forgets no divided uid. -/
theorem texts_available_iff {q p : Process τ} {h₀ h : List (Event τ)} {σ₀ : Option MCOIMAPSession}
    (hq : (storeSystem τ).Run (.init .empty σ₀) h₀ q)
    (hr : (storeSystem τ).RunWhere (fun _ a => a.InProcess)
      (.init q.store.managedObjectContext.restart none) h p) :
    (storeSystem τ).Along Process.TextsAvailable
        (.init q.store.managedObjectContext.restart none) h ↔
      (storeSystem τ).RunWhere Process.KeepsTexts
        (.init q.store.managedObjectContext.restart none) h p := by
  have hindexed := (Process.indexed_of_run hq
    (Process.indexed_init NSManagedObjectContext.indexed_empty)).store.context
  have hinit := Process.lasting_init hindexed
  refine hr.along_iff (I := Process.Lasting) hinit hinit.textsAvailable ?_
  intro h p a o p' hp _ ha hs
  exact ⟨fun hav => hp.step (hp.keepsTexts hs hav) ha hs,
    fun hC => (hp.step hC ha hs).textsAvailable, fun hav => hp.keepsTexts hs hav⟩

theorem texts_available_text_html :
    ∃ h p, (storeSystem String).Run (.init .empty none) h p ∧
      h.map Prod.fst = [.setImapSession (account "first"),
        .searchPlaintextOfMsg .insertion (some (mail 5)),
        .searchPlaintextOfMsg .insertion (some (mail 5)), .complete 1 (some "hello"),
        .complete 0 (some "hello"), .dicCached,
        .searchHtmlOfMsg .insertion (some (.imap (mail 5))), .complete 0 (some "<p>hello</p>")] ∧
      ((p.store.searchPlaintextOfMsg .insertion (some (mail 5))).returned = some "hello" ∧
        (p.store.searchHtmlOfMsg .insertion (some (.imap (mail 5)))).returned =
          some "<p>hello</p>") ∧
      (storeSystem String).Along Process.TextsAvailable (.init .empty none) h := by
  refine (storeSystem String).exists_run_of_actions (fun p a => a.InProcess ∧ p.KeepsTexts a) _ _
    (by decide +kernel) fun h p hr => ?_
  have hstart : (storeSystem String).Run (.init .empty none) [] (.init .empty none) := .nil
  exact (texts_available_iff hstart (hr.mono fun _ _ hC => hC.1)).2 (hr.mono fun _ _ hC => hC.2)

/-- The failure of a second rendering takes back the text of the first. -/
theorem not_texts_available :
    ¬ ∀ (h : List (Event String)) (p : Process String),
      (storeSystem String).RunWhere (fun _ a => a.InProcess) (.init .empty none) h p →
      Process.TextsAvailable h p := by
  intro hall
  obtain ⟨h, p, hr, hd, hnone⟩ := (storeSystem String).exists_run_of_exec
    (fun _ a => a.InProcess) (.init .empty none)
    [.setImapSession (account "first"), .searchPlaintextOfMsg .insertion (some (mail 5)),
      .searchPlaintextOfMsg .insertion (some (mail 5)), .complete 0 (some "hello"),
      .complete 0 none]
    (fun h p => (.plainTextBody (mail 5) (account "first") 0, "hello") ∈ deliveries h ∧
      (p.store.searchPlaintextOfMsg .insertion (some (mail 5))).returned = none)
    (by decide +kernel)
  obtain ⟨hsome, -⟩ := hall h p hr _ _ (delivered_of_mem_deliveries hd) .insertion (mail 5) rfl
  rw [hnone] at hsome
  cases hsome

end SecMail
