import Mathlib.Data.List.Induction
import Mathlib.Data.List.Perm.Basic

/-!
# Managed objects and validated saves

A managed object context keeps objects in memory, in front of a database.  An object may be
incomplete (an attribute not set yet); a database row may not.  `Entity` is the passage between
the two, and `Table` the registered objects of one entity, each with its committed row, if any.
References to objects are positions in the table: objects are never deleted.

* `Table.insert`, `Table.update` change the objects and leave the committed rows alone;
* `Table.fetch` searches the objects, saved or not;
* `Table.Extends` says that a table still has the objects of another, under the same keys;
* `Table.keys` lists the keys of the objects, and `Entity.Keyed` says that a committed row is under
  the key of its object;
* `Entity.Valid` and `Entity.commit` are the two halves of a save: the context validates the
  pending objects of all its tables and then commits all of them, or none;
* `Entity.reload` forgets the objects and registers the committed rows again;
* `exists_mapM_iff` and `exists_mapM_of_perm` : something is made of each result, unless that fails
  for one of them.

The order in which a fetch without sort descriptors lists its results is not specified; it is
an arbitrary permutation, `FetchOrder`.
-/

namespace SecMail

/-- A kind of managed objects `Obj` with database rows `Row`. -/
structure Entity (Obj Row : Type*) where
  /-- The row of an object, `none` when a required attribute is not set. -/
  validate : Obj → Option Row
  /-- The object registered for a row. -/
  load : Row → Obj
  /-- An object is valid exactly when it is the object of a row. -/
  validate_eq_some {o : Obj} {r : Row} : validate o = some r ↔ load r = o

/-- A registered object: its attributes in memory and its committed row. -/
structure Managed (Obj Row : Type*) where
  /-- The attributes in memory. -/
  obj : Obj
  /-- The row last committed for the object. -/
  saved : Option Row

/-- The registered objects of one entity. -/
abbrev Table (Obj Row : Type*) := List (Managed Obj Row)

/-- The order in which a fetch lists the references it found. -/
structure FetchOrder where
  /-- The listed references. -/
  list : List ℕ → List ℕ
  /-- Every result is listed once. -/
  perm : ∀ l, (list l).Perm l

/-- Results in the order of registration. -/
def FetchOrder.insertion : FetchOrder := ⟨id, fun _ => .refl _⟩

/-- Results in the reverse order of registration. -/
def FetchOrder.reverse : FetchOrder := ⟨List.reverse, List.reverse_perm⟩

/-- Reference `i` first, if it is a result. -/
def FetchOrder.first (i : ℕ) : FetchOrder where
  list l := if i ∈ l then i :: l.erase i else l
  perm l := by
    split_ifs with hi
    · exact (List.perm_cons_erase hi).symm
    · exact .refl _

variable {Obj Row : Type*}

namespace Table

/-- The object with reference `i`. -/
def object (t : Table Obj Row) (i : ℕ) : Option Obj := (t[i]?).map Managed.obj

/-- Register a new object; its reference is the length of the table. -/
def insert (t : Table Obj Row) (o : Obj) : Table Obj Row := t ++ [⟨o, none⟩]

/-- Change the attributes of the object with reference `i`. -/
def update (t : Table Obj Row) (i : ℕ) (f : Obj → Obj) : Table Obj Row :=
  t.modify i fun e => { e with obj := f e.obj }

/-- References of the objects satisfying `p`. -/
def fetch (t : Table Obj Row) (p : Obj → Bool) : List ℕ :=
  (List.range t.length).filter fun i => (t.object i).any p

/-- The first result of a fetch that lists its results in the order `order`. -/
def fetchFirst (t : Table Obj Row) (order : FetchOrder) (p : Obj → Bool) : Option ℕ :=
  (order.list (t.fetch p)).head?

/-- The committed rows. -/
def rows (t : Table Obj Row) : List Row := t.filterMap Managed.saved

variable {t : Table Obj Row} {o : Obj} {f : Obj → Obj} {i j : ℕ} {p : Obj → Bool}

@[simp] theorem length_insert : (t.insert o).length = t.length + 1 := by simp [insert]

@[simp] theorem length_update : (t.update i f).length = t.length := by simp [update]

@[simp] theorem object_insert_self : (t.insert o).object t.length = some o := by
  simp [insert, object]

theorem object_insert_of_some {o' : Obj} (h : t.object i = some o') :
    (t.insert o).object i = some o' := by
  obtain ⟨e, he, rfl⟩ := Option.map_eq_some_iff.1 h
  have hi := (List.getElem?_eq_some_iff.1 he).1
  simp [insert, object, List.getElem?_append_left hi, he]

theorem object_insert_eq_some {o' : Obj} :
    (t.insert o).object i = some o' ↔ t.object i = some o' ∨ (i = t.length ∧ o = o') := by
  constructor
  · intro h
    obtain ⟨e, he, rfl⟩ := Option.map_eq_some_iff.1 h
    rcases Nat.lt_trichotomy i t.length with hi | rfl | hi
    · exact .inl (by simpa [insert, object, List.getElem?_append_left hi] using h)
    · exact .inr ⟨rfl, by simpa [insert, object] using h⟩
    · have hlen := (List.getElem?_eq_some_iff.1 he).1
      have := length_insert (t := t) (o := o)
      omega
  · rintro (h | ⟨rfl, rfl⟩)
    · exact object_insert_of_some h
    · exact object_insert_self

@[simp] theorem object_update_self : (t.update i f).object i = (t.object i).map f := by
  simp [update, object, Function.comp_def]

theorem object_update_of_ne (h : i ≠ j) : (t.update i f).object j = t.object j := by
  simp [update, object, h]

theorem object_update_eq_some {o' : Obj} (h : (t.update i f).object j = some o') :
    ∃ o, t.object j = some o ∧ o' = if i = j then f o else o := by
  by_cases hij : i = j
  · subst hij
    obtain ⟨o, ho, rfl⟩ := Option.map_eq_some_iff.1 (object_update_self.symm.trans h)
    exact ⟨o, ho, by simp⟩
  · exact ⟨o', (object_update_of_ne hij).symm.trans h, by simp [hij]⟩

theorem object_eq_none : t.object i = none ↔ t.length ≤ i := by simp [object]

theorem lt_length_of_object (h : t.object i = some o) : i < t.length := by
  by_contra hi
  rw [object_eq_none.2 (Nat.not_lt.1 hi)] at h
  cases h

theorem mem_fetch : i ∈ t.fetch p ↔ ∃ o, t.object i = some o ∧ p o = true := by
  simp only [fetch, List.mem_filter, List.mem_range, Option.any_eq_true]
  exact ⟨fun h => h.2, fun ⟨o, ho, hp⟩ => ⟨lt_length_of_object ho, o, ho, hp⟩⟩

theorem fetchFirst_eq_some {order : FetchOrder} (h : t.fetchFirst order p = some i) :
    ∃ o, t.object i = some o ∧ p o = true :=
  mem_fetch.1 ((order.perm _).mem_iff.1 (List.mem_of_head? h))

theorem fetchFirst_eq_none {order : FetchOrder} :
    t.fetchFirst order p = none ↔ ∀ i o, t.object i = some o → p o = false := by
  have hmem : (order.list (t.fetch p)).head? = none ↔ ∀ i, i ∉ t.fetch p := by
    rw [List.head?_eq_none_iff, List.eq_nil_iff_forall_not_mem]
    simp only [(order.perm _).mem_iff]
  rw [fetchFirst, hmem]
  simp only [mem_fetch, not_exists, not_and, Bool.not_eq_true]

theorem fetchFirst_first (ho : t.object i = some o) (hp : p o = true) :
    t.fetchFirst (.first i) p = some i := by
  have hi : i ∈ t.fetch p := mem_fetch.2 ⟨o, ho, hp⟩
  simp [fetchFirst, FetchOrder.first, hi]

@[simp] theorem rows_insert : (t.insert o).rows = t.rows := by simp [insert, rows]

@[simp] theorem rows_update : (t.update i f).rows = t.rows := by
  induction t generalizing i with
  | nil => simp [update, rows]
  | cons e t ih =>
    cases i with
    | zero => simp [update, rows, List.filterMap_cons]
    | succ i =>
      have := ih (i := i)
      simp only [update, rows, List.modify_succ_cons, List.filterMap_cons] at this ⊢
      rw [this]

theorem mem_rows {r : Row} :
    r ∈ t.rows ↔ ∃ (i : ℕ) (e : Managed Obj Row), t[i]? = some e ∧ e.saved = some r := by
  rw [rows, List.mem_filterMap]
  simp only [List.mem_iff_getElem?]
  exact ⟨fun ⟨e, ⟨i, hi⟩, he⟩ => ⟨i, e, hi, he⟩, fun ⟨i, e, hi, he⟩ => ⟨e, ⟨i, hi⟩, he⟩⟩

/-- The objects, in the order of registration. -/
def objects (t : Table Obj Row) : List Obj := t.map Managed.obj

theorem getElem?_objects : t.objects[i]? = t.object i := by simp [objects, object]

/-- An update changes what the objects show exactly if it changes what its object shows. -/
theorem map_objects_update_eq_iff {γ : Type*} {g : Obj → γ} (ho : t.object i = some o) :
    (t.update i f).objects.map g = t.objects.map g ↔ g (f o) = g o := by
  constructor
  · intro h
    have hi := congrArg (fun l => l[i]?) h
    simpa [getElem?_objects, ho] using hi
  · intro h
    refine List.ext_getElem? fun j => ?_
    rw [List.getElem?_map, List.getElem?_map, getElem?_objects, getElem?_objects]
    by_cases hij : i = j
    · subst hij
      simp [ho, h]
    · rw [object_update_of_ne hij]

/-- A fetch lists the references of the objects that satisfy its predicate. -/
theorem filterMap_object_fetch : (t.fetch p).filterMap t.object = t.objects.filter p := by
  induction t using List.reverseRecOn with
  | nil => rfl
  | append_singleton t e ih =>
    have hold : ∀ i ∈ List.range t.length, object (t ++ [e]) i = object t i := by
      intro i hi
      rw [object, object, List.getElem?_append_left (List.mem_range.1 hi)]
    have hnew : object (t ++ [e]) t.length = some e.obj := by simp [object]
    have hfetch : fetch (t ++ [e]) p = fetch t p ++ [t.length].filter fun _ => p e.obj := by
      rw [fetch, List.length_append, List.length_singleton, List.range_succ, List.filter_append,
        fetch]
      congr 1
      · exact List.filter_congr fun i hi => by rw [hold i hi]
      · exact List.filter_congr fun i hi => by rw [List.mem_singleton.1 hi, hnew]; rfl
    rw [hfetch, List.filterMap_append, objects, List.map_append, List.filter_append]
    congr 1
    · rw [show t.map Managed.obj = objects t from rfl, ← ih]
      exact List.filterMap_congr fun i hi => hold i (List.mem_filter.1 hi).1
    · cases hp : p e.obj <;> simp [hp, hnew]

theorem perm_filterMap_object (order : FetchOrder) :
    ((order.list (t.fetch p)).filterMap t.object).Perm (t.objects.filter p) := by
  rw [← filterMap_object_fetch]
  exact (order.perm _).filterMap _

/-! ### Keys of objects -/

/-- Every object of `t` is still in `t'`, with the same key. -/
def Extends {κ : Type*} (key : Obj → κ) (t t' : Table Obj Row) : Prop :=
  ∀ i o, t.object i = some o → ∃ o', t'.object i = some o' ∧ key o' = key o

section Extends

variable {κ : Type*} {key : Obj → κ} {t' t'' : Table Obj Row}

theorem Extends.refl (t : Table Obj Row) : t.Extends key t := fun _ o ho => ⟨o, ho, rfl⟩

theorem Extends.trans (h : t.Extends key t') (h' : t'.Extends key t'') : t.Extends key t'' := by
  intro i o ho
  obtain ⟨o', ho', hk'⟩ := h i o ho
  obtain ⟨o'', ho'', hk''⟩ := h' i o' ho'
  exact ⟨o'', ho'', hk''.trans hk'⟩

theorem extends_insert : t.Extends key (t.insert o) :=
  fun _ o' ho' => ⟨o', object_insert_of_some ho', rfl⟩

theorem extends_update (hf : ∀ o, key (f o) = key o) : t.Extends key (t.update i f) := by
  intro j o ho
  by_cases hij : i = j
  · subst hij
    exact ⟨f o, by rw [object_update_self, ho]; rfl, hf o⟩
  · exact ⟨o, by rw [object_update_of_ne hij, ho], rfl⟩

end Extends

/-- The keys of the objects. -/
def keys {κ : Type*} (key : Obj → κ) (t : Table Obj Row) : List κ := t.map fun e => key e.obj

section Keys

variable {κ : Type*} {key : Obj → κ} {k : κ}

/-- Inserting an object keeps the keys distinct if its key is new. -/
theorem nodup_keys_insert :
    ((t.insert o).keys key).Nodup ↔ (t.keys key).Nodup ∧ key o ∉ t.keys key := by
  have happ : (t.insert o).keys key = t.keys key ++ [key o] := by simp [keys, insert]
  rw [happ, List.nodup_append]
  constructor
  · rintro ⟨ht, -, hne⟩
    exact ⟨ht, fun hmem => hne _ hmem _ (List.mem_singleton_self _) rfl⟩
  · rintro ⟨ht, hnot⟩
    refine ⟨ht, by simp, ?_⟩
    rintro a ha b hb rfl
    rw [List.mem_singleton] at hb
    exact hnot (hb ▸ ha)

theorem keys_update (hf : ∀ o, key (f o) = key o) : (t.update i f).keys key = t.keys key := by
  induction t generalizing i with
  | nil => simp [keys, update]
  | cons e t ih =>
    cases i with
    | zero => simp [keys, update, hf]
    | succ i => simpa [keys, update] using ih (i := i)

end Keys

end Table

namespace Entity

variable (E : Entity Obj Row)

/-- Every object can be committed.  Core Data validates the pending ones only, which comes to the
same (`valid_iff_pending`). -/
def Valid (t : Table Obj Row) : Prop := ∀ e ∈ t, (E.validate e.obj).isSome = true

instance (t : Table Obj Row) : Decidable (E.Valid t) :=
  inferInstanceAs (Decidable (∀ e ∈ t, (E.validate e.obj).isSome = true))

/-- Commit every object. -/
def commit (t : Table Obj Row) : Table Obj Row := t.map fun e => ⟨e.obj, E.validate e.obj⟩

/-- Register the committed rows in a new context. -/
def reload (t : Table Obj Row) : Table Obj Row := t.rows.map fun r => ⟨E.load r, some r⟩

/-- An object with changes to commit: inserted, or updated since its last commit. -/
def Pending (e : Managed Obj Row) : Prop := e.saved.map E.load ≠ some e.obj

variable {E} {t : Table Obj Row} {o : Obj} {r : Row} {i : ℕ}

@[simp] theorem validate_load : E.validate (E.load r) = some r := E.validate_eq_some.2 rfl

/-- Validating the pending objects is validating all objects: the others are as committed. -/
theorem valid_iff_pending :
    E.Valid t ↔ ∀ e ∈ t, E.Pending e → (E.validate e.obj).isSome = true := by
  refine ⟨fun h e he _ => h e he, fun h e he => ?_⟩
  by_cases hp : E.Pending e
  · exact h e he hp
  · obtain ⟨r, -, hr⟩ := Option.map_eq_some_iff.1 (not_not.1 hp)
    rw [← hr, validate_load]
    rfl

theorem valid_iff : E.Valid t ↔ ∀ i o, t.object i = some o → ∃ r, E.validate o = some r := by
  simp only [Valid, Option.isSome_iff_exists]
  constructor
  · intro h i o ho
    obtain ⟨e, he, rfl⟩ := Option.map_eq_some_iff.1 ho
    exact h e (List.mem_of_getElem? he)
  · intro h e he
    obtain ⟨i, hi⟩ := List.mem_iff_getElem?.1 he
    exact h i e.obj (by simp [Table.object, hi])

@[simp] theorem length_commit : (E.commit t).length = t.length := by simp [commit]

@[simp] theorem object_commit : (E.commit t).object i = t.object i := by
  simp [commit, Table.object, Function.comp_def]

@[simp] theorem objects_commit : (E.commit t).objects = t.objects := by
  simp [commit, Table.objects, Function.comp_def]

theorem extends_commit {κ : Type*} {key : Obj → κ} : t.Extends key (E.commit t) :=
  fun _ o ho => ⟨o, object_commit.trans ho, rfl⟩

/-- The rows after a commit are the valid objects. -/
theorem mem_rows_commit : r ∈ (E.commit t).rows ↔ ∃ i, t.object i = some (E.load r) := by
  rw [Table.mem_rows]
  constructor
  · rintro ⟨i, e, he, hr⟩
    simp only [commit, List.getElem?_map, Option.map_eq_some_iff] at he
    obtain ⟨e, he, rfl⟩ := he
    exact ⟨i, by simp [Table.object, he, E.validate_eq_some.1 hr]⟩
  · rintro ⟨i, hi⟩
    obtain ⟨e, he, hr⟩ := Option.map_eq_some_iff.1 hi
    exact ⟨i, ⟨e.obj, E.validate e.obj⟩, by simp [commit, he], E.validate_eq_some.2 hr.symm⟩

section Keys

variable {κ : Type*} {key : Obj → κ}

@[simp] theorem keys_commit : (E.commit t).keys key = t.keys key := by
  simp [commit, Table.keys, Function.comp_def]

variable (E key) in
/-- Committed rows are under the keys of their objects. -/
def Keyed (t : Table Obj Row) : Prop := ∀ e ∈ t, ∀ r, e.saved = some r → key (E.load r) = key e.obj

theorem Keyed.insert (h : E.Keyed key t) : E.Keyed key (t.insert o) := by
  intro e he r hr
  rcases List.mem_append.1 he with he | he
  · exact h e he r hr
  · rw [List.mem_singleton] at he
    subst he
    cases hr

theorem Keyed.update {f : Obj → Obj} (h : E.Keyed key t) (hf : ∀ o, key (f o) = key o) :
    E.Keyed key (t.update i f) := by
  intro e he r hr
  obtain ⟨j, hj⟩ := List.mem_iff_getElem?.1 he
  rw [Table.update, List.getElem?_modify, Option.map_eq_map, Option.map_eq_some_iff] at hj
  obtain ⟨e, hj, rfl⟩ := hj
  have hmem := List.mem_of_getElem? hj
  split_ifs at hr ⊢
  · exact (h e hmem r hr).trans (hf _).symm
  · exact h e hmem r hr

theorem keyed_commit : E.Keyed key (E.commit t) := by
  intro e he r hr
  obtain ⟨e, -, rfl⟩ := List.mem_map.1 he
  rw [E.validate_eq_some.1 hr]

theorem keyed_reload : E.Keyed key (E.reload t) := by
  intro e he r hr
  obtain ⟨r, -, rfl⟩ := List.mem_map.1 he
  cases hr
  rfl

/-- A new context has some of the keys, in the same order. -/
theorem Keyed.keys_reload (h : E.Keyed key t) : ((E.reload t).keys key).Sublist (t.keys key) := by
  induction t with
  | nil => exact List.Sublist.refl _
  | cons e t ih =>
    have ih := ih fun e' he' => h e' (List.mem_cons_of_mem _ he')
    cases hs : e.saved with
    | none => simpa [reload, Table.rows, Table.keys, hs] using ih.cons (key e.obj)
    | some r =>
      have hk := h e List.mem_cons_self r hs
      simpa [reload, Table.rows, Table.keys, hs, hk] using ih.cons_cons (key e.obj)

end Keys

@[simp] theorem rows_reload : (E.reload t).rows = t.rows := by
  simp only [reload, Table.rows, List.filterMap_map]
  exact (List.filterMap_congr fun _ _ => rfl).trans List.filterMap_some

/-- A commit has nothing to do in a new context. -/
theorem commit_reload : E.commit (E.reload t) = E.reload t := by
  simp [commit, reload, Function.comp_def]

theorem reload_reload : E.reload (E.reload t) = E.reload t := by
  rw [reload, rows_reload, reload]

theorem valid_reload : E.Valid (E.reload t) := by
  intro e he
  obtain ⟨r, -, rfl⟩ := List.mem_map.1 he
  rw [validate_load]
  rfl

theorem object_reload : (E.reload t).object i = (t.rows[i]?).map E.load := by
  simp [reload, Table.object, Function.comp_def]

/-- The objects of a new context are the committed rows. -/
theorem exists_object_reload {P : Obj → Prop} :
    (∃ i o, (E.reload t).object i = some o ∧ P o) ↔ ∃ r ∈ t.rows, P (E.load r) := by
  simp only [object_reload, Option.map_eq_some_iff, List.mem_iff_getElem?]
  constructor
  · rintro ⟨i, _, ⟨r, hr, rfl⟩, hP⟩
    exact ⟨r, ⟨i, hr⟩, hP⟩
  · rintro ⟨r, ⟨i, hr⟩, hP⟩
    exact ⟨i, _, ⟨r, hr, rfl⟩, hP⟩

end Entity

/-! ### Listing with failures -/

section MapM

variable {α β : Type*} {f : α → Option β} {l : List α}

/-- What is mapped to a list, entry by entry. -/
theorem forall₂_of_mapM {r : List β} (h : l.mapM f = some r) :
    List.Forall₂ (fun a b => f a = some b) l r := by
  induction l generalizing r with
  | nil => cases h; exact .nil
  | cons a l ih =>
    rw [List.mapM_cons] at h
    obtain ⟨b, hb, h⟩ := Option.bind_eq_some_iff.1 h
    obtain ⟨r, hr, h⟩ := Option.bind_eq_some_iff.1 h
    cases h
    exact .cons hb (ih hr)

/-- Mapping succeeds exactly if it does for every entry. -/
theorem exists_mapM_iff : (∃ r, l.mapM f = some r) ↔ ∀ a ∈ l, ∃ b, f a = some b := by
  induction l with
  | nil => exact ⟨fun _ => by simp, fun _ => ⟨[], rfl⟩⟩
  | cons a l ih =>
    rw [List.forall_mem_cons, ← ih]
    constructor
    · rintro ⟨r, hr⟩
      rw [List.mapM_cons] at hr
      obtain ⟨b, hb, hr⟩ := Option.bind_eq_some_iff.1 hr
      obtain ⟨r, hr, -⟩ := Option.bind_eq_some_iff.1 hr
      exact ⟨⟨b, hb⟩, r, hr⟩
    · rintro ⟨⟨b, hb⟩, r, hr⟩
      exact ⟨b :: r, by simp [List.mapM_cons, hb, hr]⟩

theorem mapM_append_singleton_iff {a : α} {r : List β} :
    (l ++ [a]).mapM f = some r ↔ ∃ r' b, l.mapM f = some r' ∧ f a = some b ∧ r = r' ++ [b] := by
  rw [List.mapM_append, List.mapM_cons, List.mapM_nil]
  constructor
  · intro h
    obtain ⟨r', hr', h⟩ := Option.bind_eq_some_iff.1 h
    obtain ⟨r₂, hr₂, h⟩ := Option.bind_eq_some_iff.1 h
    obtain ⟨b, hb, hr₂⟩ := Option.bind_eq_some_iff.1 hr₂
    cases hr₂
    cases h
    exact ⟨r', b, hr', hb, rfl⟩
  · rintro ⟨r', b, hr', hb, rfl⟩
    simp [hr', hb]

theorem filterMap_of_mapM {r : List β} (h : l.mapM f = some r) : l.filterMap f = r := by
  have hall := forall₂_of_mapM h
  clear h
  induction hall with
  | nil => rfl
  | cons hb _ ih => rw [List.filterMap_cons_some hb, ih]

/-- The order of the entries does not matter. -/
theorem exists_mapM_of_perm {l' : List α} {r : List β} (hperm : l'.Perm l)
    (h : l.mapM f = some r) : ∃ r', l'.mapM f = some r' ∧ r'.Perm r := by
  obtain ⟨r', hr'⟩ := exists_mapM_iff.2 fun a ha => exists_mapM_iff.1 ⟨r, h⟩ a (hperm.mem_iff.1 ha)
  have hfilter := hperm.filterMap f
  rw [filterMap_of_mapM h, filterMap_of_mapM hr'] at hfilter
  exact ⟨r', hr', hfilter⟩

end MapM

end SecMail
