/-!
# Tables

What a host declares, and what a call infers, is a finite map: a type or
a function by its name, a type by its placeholder. A `Table` is such a
map, kept as a list of entries in increasing order of their keys. Order
and uniqueness are part of the type, so a table has no history: two
tables that answer every look-up alike are the same table
(`Table.ext_find?`), whatever was inserted when and whatever was
replaced.

`Table.find?_insert_self` and `Table.find?_insert_of_ne` say what
inserting does to the answers; nothing else about `insert` is needed.
-/

namespace PredicateScript

/-- **A finite map** from `κ` to `υ`: one entry a key, in increasing
order of the keys. -/
structure Table (κ υ : Type) [Ord κ] where
  /-- The entries. -/
  entries : List (κ × υ)
  /-- Every key is smaller than the keys after it. -/
  ordered : entries.Pairwise (fun a b => compare a.1 b.1 = .lt)

namespace Table

section Operations

variable {κ υ : Type} [Ord κ]

/-- The table without entries. -/
def empty : Table κ υ := ⟨[], .nil⟩

instance : EmptyCollection (Table κ υ) := ⟨empty⟩

instance : Inhabited (Table κ υ) := ⟨empty⟩

/-- The value of a key, if the table has an entry for it. -/
def find? [BEq κ] (t : Table κ υ) (k : κ) : Option υ :=
  t.entries.lookup k

/-- The keys, in increasing order. -/
def keys (t : Table κ υ) : List κ :=
  t.entries.map Prod.fst

/-- Whether there is no entry at all. -/
def isEmpty (t : Table κ υ) : Bool :=
  t.entries.isEmpty

/-- Put an entry at its place in an ordered list; an entry of the same
key gives way to it. -/
def insertEntry (k : κ) (v : υ) : List (κ × υ) → List (κ × υ)
  | [] => [(k, v)]
  | (k', v') :: rest =>
    match compare k k' with
    | .lt => (k, v) :: (k', v') :: rest
    | .eq => (k, v) :: rest
    | .gt => (k', v') :: insertEntry k v rest

/-- The keys after an insertion are the old ones and the new one. -/
theorem mem_insertEntry {k : κ} {v : υ} {e : κ × υ} :
    ∀ {l : List (κ × υ)}, e ∈ insertEntry k v l → e = (k, v) ∨ e ∈ l
  | [], h => Or.inl (by simpa [insertEntry] using h)
  | (k', v') :: rest, h => by
    unfold insertEntry at h
    split at h
    · simpa using h
    · rcases List.mem_cons.mp h with rfl | h
      · exact Or.inl rfl
      · exact Or.inr (List.mem_cons_of_mem _ h)
    · rcases List.mem_cons.mp h with rfl | h
      · exact Or.inr (List.mem_cons_self ..)
      · exact (mem_insertEntry h).imp_right (List.mem_cons_of_mem _)

/-- Insertion keeps the keys increasing. -/
theorem pairwise_insertEntry [Std.TransOrd κ] [Std.LawfulEqOrd κ]
    {k : κ} {v : υ} :
    ∀ {l : List (κ × υ)},
      l.Pairwise (fun a b => compare a.1 b.1 = .lt) →
      (insertEntry k v l).Pairwise (fun a b => compare a.1 b.1 = .lt)
  | [], _ => List.pairwise_singleton _ _
  | (k', v') :: rest, h => by
    obtain ⟨hlt, hrest⟩ := List.pairwise_cons.mp h
    unfold insertEntry
    split
    · next hk =>
      refine List.pairwise_cons.mpr ⟨fun e he => ?_, h⟩
      rcases List.mem_cons.mp he with rfl | he
      · exact hk
      · exact Std.TransCmp.lt_trans hk (hlt e he)
    · next hk =>
      cases Std.LawfulEqCmp.eq_of_compare hk
      exact List.pairwise_cons.mpr ⟨hlt, hrest⟩
    · next hk =>
      refine List.pairwise_cons.mpr
        ⟨fun e he => ?_, pairwise_insertEntry hrest⟩
      rcases mem_insertEntry he with rfl | he
      · exact Std.OrientedCmp.gt_iff_lt.mp hk
      · exact hlt e he

/-- **Insertion**: the entry is added, or replaces the one of its key. -/
def insert [Std.TransOrd κ] [Std.LawfulEqOrd κ] (t : Table κ υ) (k : κ)
    (v : υ) : Table κ υ :=
  ⟨insertEntry k v t.entries, pairwise_insertEntry t.ordered⟩

end Operations

/-! ## Look-ups -/

end Table

/-- What is listed in an association list is what it can be asked for. -/
theorem mem_map_fst_iff_lookup {κ υ : Type} [BEq κ] [LawfulBEq κ]
    {l : List (κ × υ)} {k : κ} :
    k ∈ l.map Prod.fst ↔ (l.lookup k).isSome = true := by
  rw [List.lookup_isSome_iff, List.mem_map]
  constructor
  · rintro ⟨entry, hentry, rfl⟩
    exact ⟨entry, hentry, beq_self_eq_true _⟩
  · rintro ⟨entry, hentry, hk⟩
    exact ⟨entry, hentry, (eq_of_beq hk).symm⟩

namespace Table

section Lookup

variable {κ υ : Type} [Ord κ] [BEq κ]

@[simp] theorem find?_empty (k : κ) : (empty : Table κ υ).find? k = none :=
  rfl

theorem mem_keys_iff [LawfulBEq κ] {t : Table κ υ} {k : κ} :
    k ∈ t.keys ↔ (t.find? k).isSome = true :=
  mem_map_fst_iff_lookup

/-- A table is empty where it answers nothing. -/
theorem isEmpty_iff [LawfulBEq κ] {t : Table κ υ} :
    t.isEmpty = true ↔ ∀ k, t.find? k = none := by
  rw [isEmpty, List.isEmpty_iff, ← List.map_eq_nil_iff (f := Prod.fst),
    List.eq_nil_iff_forall_not_mem]
  refine forall_congr' (fun k => ?_)
  rw [mem_map_fst_iff_lookup, Bool.not_eq_true, Option.isSome_eq_false_iff,
    Option.isNone_iff_eq_none]
  rfl

variable [Std.TransOrd κ] [Std.LawfulEqOrd κ] [LawfulBEq κ]

/-- The inserted key has the inserted value. -/
@[simp] theorem find?_insert_self (t : Table κ υ) (k : κ) (v : υ) :
    (t.insert k v).find? k = some v := by
  obtain ⟨l, hl⟩ := t
  show (insertEntry k v l).lookup k = some v
  clear hl
  induction l with
  | nil => simp [insertEntry]
  | cons e rest ih =>
    obtain ⟨k', v'⟩ := e
    unfold insertEntry
    split
    · simp
    · simp
    · next hk =>
      have hne : k ≠ k' := by
        rintro rfl
        cases hk.symm.trans (Std.ReflCmp.compare_self (a := k))
      rw [List.lookup_cons, beq_eq_false_iff_ne.mpr hne]
      exact ih

/-- Every other key keeps its answer. -/
theorem find?_insert_of_ne (t : Table κ υ) {k j : κ} (v : υ)
    (h : j ≠ k) : (t.insert k v).find? j = t.find? j := by
  obtain ⟨l, hl⟩ := t
  show (insertEntry k v l).lookup j = l.lookup j
  clear hl
  induction l with
  | nil => simp [insertEntry, List.lookup_cons, beq_eq_false_iff_ne.mpr h]
  | cons e rest ih =>
    obtain ⟨k', v'⟩ := e
    unfold insertEntry
    split
    · rw [List.lookup_cons, beq_eq_false_iff_ne.mpr h]
    · next hk =>
      cases Std.LawfulEqCmp.eq_of_compare hk
      simp [List.lookup_cons, beq_eq_false_iff_ne.mpr h]
    · rw [List.lookup_cons, List.lookup_cons, ih]

omit [Std.TransOrd κ] in
/-- A key below all keys of a list is not among them. -/
theorem lookup_eq_none_of_lt {k : κ} :
    ∀ {l : List (κ × υ)}, (∀ e ∈ l, compare k e.1 = .lt) →
      l.lookup k = none
  | [], _ => rfl
  | (k', v') :: rest, h => by
    have hne : k ≠ k' := by
      rintro rfl
      cases (h (k, v') (List.mem_cons_self ..)).symm.trans
        (Std.ReflCmp.compare_self (a := k))
    rw [List.lookup_cons, beq_eq_false_iff_ne.mpr hne]
    exact lookup_eq_none_of_lt
      (fun e he => h e (List.mem_cons_of_mem _ he))

/-- Ordered lists with the same look-ups are the same list. -/
theorem entries_eq_of_lookup :
    ∀ {l m : List (κ × υ)},
      l.Pairwise (fun a b => compare a.1 b.1 = .lt) →
      m.Pairwise (fun a b => compare a.1 b.1 = .lt) →
      (∀ k, l.lookup k = m.lookup k) → l = m
  | [], [], _, _, _ => rfl
  | [], (k, v) :: m, _, _, h => by
    have := h k
    simp at this
  | (k, v) :: l, [], _, _, h => by
    have := h k
    simp at this
  | (k, v) :: l, (k', v') :: m, hl, hm, h => by
    obtain ⟨hkl, hl'⟩ := List.pairwise_cons.mp hl
    obtain ⟨hkm, hm'⟩ := List.pairwise_cons.mp hm
    have hkk : compare k k' = .eq := by
      cases hc : compare k k' with
      | eq => rfl
      | lt =>
        have hnone : ((k', v') :: m).lookup k = none :=
          lookup_eq_none_of_lt (fun e he => by
            rcases List.mem_cons.mp he with rfl | he
            · exact hc
            · exact Std.TransCmp.lt_trans hc (hkm e he))
        have := (h k).trans hnone
        simp at this
      | gt =>
        have hc' := Std.OrientedCmp.gt_iff_lt.mp hc
        have hnone : ((k, v) :: l).lookup k' = none :=
          lookup_eq_none_of_lt (fun e he => by
            rcases List.mem_cons.mp he with rfl | he
            · exact hc'
            · exact Std.TransCmp.lt_trans hc' (hkl e he))
        have := (h k').symm.trans hnone
        simp at this
    cases Std.LawfulEqCmp.eq_of_compare hkk
    have hv : v = v' := by simpa using h k
    subst hv
    refine congrArg _ (entries_eq_of_lookup hl' hm' (fun j => ?_))
    by_cases hj : j = k
    · subst hj
      rw [lookup_eq_none_of_lt hkl, lookup_eq_none_of_lt hkm]
    · simpa [List.lookup_cons, beq_eq_false_iff_ne.mpr hj] using h j

/-- **A table is its answers**: the same look-ups, the same table. -/
theorem ext_find? {t u : Table κ υ} (h : ∀ k, t.find? k = u.find? k) :
    t = u := by
  obtain ⟨l, hl⟩ := t
  obtain ⟨m, hm⟩ := u
  cases entries_eq_of_lookup hl hm h
  rfl

end Lookup

end Table

end PredicateScript
