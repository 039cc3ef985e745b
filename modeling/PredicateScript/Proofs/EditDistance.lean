import PredicateScript.EditDistance
import Mathlib.Order.Bounds.Basic
import Mathlib.Order.MinMax

/-!
# The edit distance is minimal

An **edit** inserts, deletes or replaces one character of a word, and a
script of edits is carried out one after the other. The distance that
`PredicateScript.EditDistance` computes is the length of a shortest script
from the one word to the other (`editDistance_isLeast`).

A script may edit a place twice and go back and forth, so scripts are no
ground for an induction. What is common to all scripts that come to the
same thing is an **alignment** of the two words: from left to right, a
character is inserted, deleted, kept or replaced. An alignment can be
carried out as a script (`Alignment.exists_script`). Conversely an edit in
front of an alignment costs one step at most (`Edit.near`), so a script
leads to an alignment that costs no more than the script is long
(`exists_alignment_of_script`).

Alignments are found from the end of the words, which is the recurrence
that the table is filled in by (`isLeast_alignment_cons_cons`). The rest is
about the one row that is kept. `HoldsPass` says what is in it while it is
written over: entries of the new row up to a place, entries of the old row
after it, and the old entry of that place put aside. It holds before the
first entry and is kept by each step, and so every access on the way is to
a place that is there.
-/

namespace PredicateScript

/-! ## Edits -/

/-- **An edit** of a word, at a place counted from zero. -/
inductive Edit where
  /-- Insert a character, so that it stands at the place. -/
  | insert (place : Nat) (c : Char)
  /-- Delete the character at the place. -/
  | delete (place : Nat)
  /-- Put a character in place of the one that is there. -/
  | replace (place : Nat) (c : Char)
  deriving DecidableEq, Repr

namespace Edit

/-- **The word after an edit**, if the word has the place. -/
def apply : Edit → List Char → Option (List Char)
  | insert i c, w => if i ≤ w.length then some (w.insertIdx i c) else none
  | delete i, w => if i < w.length then some (w.eraseIdx i) else none
  | replace i c, w => if i < w.length then some (w.set i c) else none

/-- **The word after a script** of edits, one after the other. -/
def applyAll (script : List Edit) (w : List Char) : Option (List Char) :=
  script.foldlM (fun w edit => edit.apply w) w

/-- The edit one place further on. -/
def shift : Edit → Edit
  | insert i c => insert (i + 1) c
  | delete i => delete (i + 1)
  | replace i c => replace (i + 1) c

variable {script : List Edit} {edit : Edit} {w w' : List Char}

theorem apply_shift (edit : Edit) (x : Char) (w : List Char) :
    edit.shift.apply (x :: w) = (edit.apply w).map (x :: ·) := by
  cases edit <;> simp [shift, apply]

theorem applyAll_nil_eq_some_iff : applyAll [] w = some w' ↔ w = w' :=
  Option.some_inj

theorem applyAll_cons_eq_some_iff :
    applyAll (edit :: script) w = some w'
      ↔ ∃ v, edit.apply w = some v ∧ applyAll script v = some w' := by
  rw [applyAll, List.foldlM_cons]
  exact Option.bind_eq_some_iff

/-- Behind a character a script does what it does to the word alone. -/
theorem applyAll_map_shift (x : Char) (h : applyAll script w = some w') :
    applyAll (script.map shift) (x :: w) = some (x :: w') := by
  induction script generalizing w with
  | nil => rw [applyAll_nil_eq_some_iff.mp h]; rfl
  | cons edit script ih =>
    obtain ⟨v, hv, h⟩ := applyAll_cons_eq_some_iff.mp h
    refine applyAll_cons_eq_some_iff.mpr ⟨x :: v, ?_, ih h⟩
    rw [apply_shift, hv, Option.map_some]

end Edit

/-! ## Alignments -/

/-- **An alignment** of two words, with its cost: how the second is made
from the first, character by character from left to right. -/
inductive Alignment : List Char → List Char → Nat → Prop where
  /-- The words are at their end. -/
  | nil : Alignment [] [] 0
  /-- A character is inserted. -/
  | insert {xs ys : List Char} {n : Nat} (y : Char)
      (h : Alignment xs ys n) : Alignment xs (y :: ys) (n + 1)
  /-- A character is deleted. -/
  | delete {xs ys : List Char} {n : Nat} (x : Char)
      (h : Alignment xs ys n) : Alignment (x :: xs) ys (n + 1)
  /-- A character is kept, which costs nothing. -/
  | keep {xs ys : List Char} {n : Nat} (x : Char)
      (h : Alignment xs ys n) : Alignment (x :: xs) (x :: ys) n
  /-- A character is replaced. -/
  | replace {xs ys : List Char} {n : Nat} (x y : Char)
      (h : Alignment xs ys n) : Alignment (x :: xs) (y :: ys) (n + 1)

namespace Alignment

variable {xs ys xs' ys' : List Char} {n m : Nat}

/-- A word can be kept as it is. -/
theorem refl (xs : List Char) : Alignment xs xs 0 := by
  induction xs with
  | nil => exact .nil
  | cons x xs ih => exact .keep x ih

theorem append (h : Alignment xs ys n) (h' : Alignment xs' ys' m) :
    Alignment (xs ++ xs') (ys ++ ys') (m + n) := by
  induction h with
  | nil => exact h'
  | insert y _ ih => exact .insert y ih
  | delete x _ ih => exact .delete x ih
  | keep x _ ih => exact .keep x ih
  | replace x y _ ih => exact .replace x y ih

/-- **Read from the right**, an alignment costs what it costs from the
left. -/
theorem reverse (h : Alignment xs ys n) :
    Alignment xs.reverse ys.reverse n := by
  induction h with
  | nil => exact .nil
  | insert y _ ih => simpa [Nat.add_comm] using ih.append (.insert y .nil)
  | delete x _ ih => simpa [Nat.add_comm] using ih.append (.delete x .nil)
  | keep x _ ih => simpa using ih.append (.keep x .nil)
  | replace x y _ ih =>
    simpa [Nat.add_comm] using ih.append (.replace x y .nil)

/-- An alignment that costs nothing keeps every character. -/
theorem eq_of_cost_zero (h : Alignment xs ys n) (hn : n = 0) : xs = ys := by
  induction h with
  | nil => rfl
  | keep x _ ih => rw [ih hn]
  | insert | delete | replace => cases hn

/-- **An alignment is carried out by a script** that is as long as it
costs. -/
theorem exists_script (h : Alignment xs ys n) :
    ∃ script, script.length = n ∧ Edit.applyAll script xs = some ys := by
  induction h with
  | nil => exact ⟨[], rfl, rfl⟩
  | @insert xs ys n y _ ih =>
    obtain ⟨script, rfl, hscript⟩ := ih
    refine ⟨.insert 0 y :: script.map Edit.shift, by simp, ?_⟩
    exact Edit.applyAll_cons_eq_some_iff.mpr
      ⟨y :: xs, by simp [Edit.apply], Edit.applyAll_map_shift y hscript⟩
  | @delete xs ys n x _ ih =>
    obtain ⟨script, rfl, hscript⟩ := ih
    refine ⟨.delete 0 :: script, rfl, ?_⟩
    exact Edit.applyAll_cons_eq_some_iff.mpr
      ⟨xs, by simp [Edit.apply], hscript⟩
  | @keep xs ys n x _ ih =>
    obtain ⟨script, rfl, hscript⟩ := ih
    exact ⟨script.map Edit.shift, by simp,
      Edit.applyAll_map_shift x hscript⟩
  | @replace xs ys n x y _ ih =>
    obtain ⟨script, rfl, hscript⟩ := ih
    refine ⟨.replace 0 y :: script.map Edit.shift, by simp, ?_⟩
    exact Edit.applyAll_cons_eq_some_iff.mpr
      ⟨y :: xs, by simp [Edit.apply], Edit.applyAll_map_shift y hscript⟩

end Alignment

/-! ## An edit in front of an alignment -/

/-- **Two words a step apart**: wherever the second can be brought, the
first can be brought at one step more. -/
def Near (s t : List Char) : Prop :=
  ∀ u n, Alignment t u n → ∃ m ≤ n + 1, Alignment s u m

section Near

variable {s t : List Char}

/-- An inserted character is left out again where it would be used. -/
theorem near_insert (c : Char) (s : List Char) : Near s (c :: s) := by
  intro u n h
  generalize ht : c :: s = t at h
  induction h with
  | nil => cases ht
  | insert y _ ih =>
    obtain ⟨m, hm, h⟩ := ih ht
    exact ⟨m + 1, by omega, .insert y h⟩
  | @delete _ _ n x h _ =>
    cases ht
    exact ⟨n, by omega, h⟩
  | keep x h _ | replace x y h _ =>
    cases ht
    exact ⟨_, by omega, .insert _ h⟩

theorem near_delete (c : Char) (t : List Char) : Near (c :: t) t := by
  intro u n h
  exact ⟨n + 1, Nat.le_refl _, .delete c h⟩

theorem near_replace (c d : Char) (s : List Char) :
    Near (c :: s) (d :: s) := by
  intro u n h
  generalize ht : d :: s = t at h
  induction h with
  | nil => cases ht
  | insert y _ ih =>
    obtain ⟨m, hm, h⟩ := ih ht
    exact ⟨m + 1, by omega, .insert y h⟩
  | delete x h _ =>
    cases ht
    exact ⟨_, by omega, .delete c h⟩
  | keep x h _ | replace x y h _ =>
    cases ht
    exact ⟨_, by omega, .replace c _ h⟩

/-- What comes before the step makes no difference. -/
theorem Near.cons (h : Near s t) (c : Char) : Near (c :: s) (c :: t) := by
  intro u n hu
  generalize ht : c :: t = t' at hu
  induction hu with
  | nil => cases ht
  | insert y _ ih =>
    obtain ⟨m, hm, hs⟩ := ih ht
    exact ⟨m + 1, by omega, .insert y hs⟩
  | delete x hu _ =>
    cases ht
    obtain ⟨m, hm, hs⟩ := h _ _ hu
    exact ⟨m + 1, by omega, .delete c hs⟩
  | keep x hu _ =>
    cases ht
    obtain ⟨m, hm, hs⟩ := h _ _ hu
    exact ⟨m, hm, .keep c hs⟩
  | replace x y hu _ =>
    cases ht
    obtain ⟨m, hm, hs⟩ := h _ _ hu
    exact ⟨m + 1, by omega, .replace c y hs⟩

/-- **An edit is a step.** -/
theorem Edit.near {edit : Edit} (h : edit.apply s = some t) : Near s t := by
  induction s generalizing edit t with
  | nil =>
    match edit with
    | .insert 0 c =>
      cases h
      exact near_insert c []
    | .insert (_ + 1) _ | .delete _ | .replace _ _ => simp [apply] at h
  | cons x s ih =>
    -- behind the first character, by the induction hypothesis
    have hshift (edit : Edit) (h : edit.shift.apply (x :: s) = some t) :
        Near (x :: s) t := by
      rw [apply_shift, Option.map_eq_some_iff] at h
      obtain ⟨t', ht', rfl⟩ := h
      exact (ih ht').cons x
    match edit with
    | .insert 0 c =>
      cases h
      exact near_insert c (x :: s)
    | .delete 0 =>
      cases h
      exact near_delete x s
    | .replace 0 c =>
      cases h
      exact near_replace x c s
    | .insert (i + 1) c => exact hshift (.insert i c) h
    | .delete (i + 1) => exact hshift (.delete i) h
    | .replace (i + 1) c => exact hshift (.replace i c) h

/-- **A script leads to an alignment** that costs no more than the script is
long. -/
theorem exists_alignment_of_script {script : List Edit}
    (h : Edit.applyAll script s = some t) :
    ∃ n ≤ script.length, Alignment s t n := by
  induction script generalizing s with
  | nil =>
    rw [Edit.applyAll_nil_eq_some_iff.mp h]
    exact ⟨0, Nat.le_refl _, .refl t⟩
  | cons edit script ih =>
    obtain ⟨v, hv, h⟩ := Edit.applyAll_cons_eq_some_iff.mp h
    obtain ⟨n, hn, hvt⟩ := ih h
    obtain ⟨m, hm, hst⟩ := Edit.near hv t n hvt
    exact ⟨m, hm.trans (Nat.succ_le_succ hn), hst⟩

end Near

/-! ## The recurrence -/

section Recurrence

variable {xs ys : List Char} {d : Nat}

/-- What a cheapest alignment costs, a shortest script needs. -/
theorem isLeast_script_of_alignment
    (h : IsLeast {n | Alignment xs ys n} d) :
    IsLeast {n | ∃ script, script.length = n
      ∧ Edit.applyAll script xs = some ys} d := by
  obtain ⟨hd, hleast⟩ := h
  refine ⟨Alignment.exists_script hd, ?_⟩
  rintro n ⟨script, rfl, hscript⟩
  obtain ⟨m, hm, halign⟩ := exists_alignment_of_script hscript
  exact (hleast halign).trans hm

theorem isLeast_alignment_reverse
    (h : IsLeast {n | Alignment xs.reverse ys.reverse n} d) :
    IsLeast {n | Alignment xs ys n} d := by
  obtain ⟨hd, hleast⟩ := h
  refine ⟨?_, fun n hn => hleast (Alignment.reverse hn)⟩
  have hback := Alignment.reverse hd
  rwa [List.reverse_reverse, List.reverse_reverse] at hback

/-- To make a word from nothing, all of it is inserted. -/
theorem isLeast_alignment_nil_left (ys : List Char) :
    IsLeast {n | Alignment [] ys n} ys.length := by
  induction ys with
  | nil => exact ⟨.nil, fun n _ => Nat.zero_le n⟩
  | cons y ys ih =>
    refine ⟨.insert y ih.1, fun n hn => ?_⟩
    cases hn with
    | insert _ h => exact Nat.succ_le_succ (ih.2 h)

/-- To make nothing from a word, all of it is deleted. -/
theorem isLeast_alignment_nil_right (xs : List Char) :
    IsLeast {n | Alignment xs [] n} xs.length := by
  induction xs with
  | nil => exact ⟨.nil, fun n _ => Nat.zero_le n⟩
  | cons x xs ih =>
    refine ⟨.delete x ih.1, fun n hn => ?_⟩
    cases hn with
    | delete _ h => exact Nat.succ_le_succ (ih.2 h)

/-- **The recurrence**: a cheapest alignment deletes the first character of
the one word, or inserts that of the other, or lets the two face each
other. -/
theorem isLeast_alignment_cons_cons {x y : Char} {above left diagonal : Nat}
    (habove : IsLeast {n | Alignment xs (y :: ys) n} above)
    (hleft : IsLeast {n | Alignment (x :: xs) ys n} left)
    (hdiagonal : IsLeast {n | Alignment xs ys n} diagonal) :
    IsLeast {n | Alignment (x :: xs) (y :: ys) n}
      (min (min (above + 1) (left + 1))
        (diagonal + if x = y then 0 else 1)) := by
  have hfacing : Alignment (x :: xs) (y :: ys)
      (diagonal + if x = y then 0 else 1) := by
    split
    · next hxy => exact hxy ▸ .keep x hdiagonal.1
    · exact .replace x y hdiagonal.1
  constructor
  · show Alignment _ _ _
    rcases min_choice (min (above + 1) (left + 1))
      (diagonal + if x = y then 0 else 1) with h | h <;> rw [h]
    · rcases min_choice (above + 1) (left + 1) with h | h <;> rw [h]
      · exact .delete x habove.1
      · exact .insert y hleft.1
    · exact hfacing
  · intro n hn
    cases hn with
    | insert _ h => have := hleft.2 h; omega
    | delete _ h => have := habove.2 h; omega
    | keep _ h => have := hdiagonal.2 h; simp; omega
    | replace _ _ h => have := hdiagonal.2 h; split <;> omega

end Recurrence

namespace EditDistance

/-! ## The rows -/

section Rows

variable {xs ys : Array Char} {i j d : Nat}

/-- **The entry of the table** for the prefixes of the given lengths. The
prefixes are read from the end, where the table grows. -/
def Entry (xs ys : Array Char) (i j d : Nat) : Prop :=
  IsLeast {n | Alignment (xs.toList.take i).reverse
    (ys.toList.take j).reverse n} d

/-- **A row of the table.** -/
structure HoldsRow (xs ys : Array Char) (i : Nat) (row : Array Nat) :
    Prop where
  /-- There is an entry for each prefix. -/
  size : row.size = ys.size + 1
  /-- Each is the one of the table. -/
  entry : ∀ j d, row[j]? = some d → Entry xs ys i j d

/-- **The row after the row `i`, written up to the place `j`.** -/
structure HoldsPass (xs ys : Array Char) (i j : Nat) (pass : Pass) :
    Prop where
  /-- There is an entry for each prefix. -/
  size : pass.row.size = ys.size + 1
  /-- Up to the place, the entries are those of the new row. -/
  written : ∀ k d, k ≤ j → pass.row[k]? = some d → Entry xs ys (i + 1) k d
  /-- After it, they are those of the old row. -/
  unwritten : ∀ k d, j < k → pass.row[k]? = some d → Entry xs ys i k d
  /-- The old entry of the place is put aside. -/
  diagonal : Entry xs ys i j pass.diagonal

/-- A prefix that is one longer has one character more at its end. -/
theorem reverse_take_succ {x : Char} (h : xs[i]? = some x) :
    (xs.toList.take (i + 1)).reverse = x :: (xs.toList.take i).reverse := by
  rw [List.take_add_one, Array.getElem?_toList, h]
  simp

/-- The table for no characters. -/
theorem entry_zero_left (xs : Array Char) (h : j ≤ ys.size) :
    Entry xs ys 0 j j := by
  have hleast := isLeast_alignment_nil_left (ys.toList.take j).reverse
  rwa [List.length_reverse, List.length_take_of_le h] at hleast

theorem entry_zero_right (ys : Array Char) (h : i ≤ xs.size) :
    Entry xs ys i 0 i := by
  have hleast := isLeast_alignment_nil_right (xs.toList.take i).reverse
  rwa [List.length_reverse, List.length_take_of_le h] at hleast

/-- **An entry is found from its neighbours.** -/
theorem Entry.succ_succ {x y : Char} {above left diagonal : Nat}
    (hx : xs[i]? = some x) (hy : ys[j]? = some y)
    (habove : Entry xs ys i (j + 1) above)
    (hleft : Entry xs ys (i + 1) j left)
    (hdiagonal : Entry xs ys i j diagonal) :
    Entry xs ys (i + 1) (j + 1) (min (min (above + 1) (left + 1))
      (diagonal + if x = y then 0 else 1)) := by
  unfold Entry at *
  rw [reverse_take_succ hy] at habove ⊢
  rw [reverse_take_succ hx] at hleft ⊢
  exact isLeast_alignment_cons_cons habove hleft hdiagonal

/-- A place that is there can be read. -/
theorem exists_read {α : Type} {as : Array α} (h : j < as.size) :
    ∃ a, as[j]? = some a :=
  ⟨as[j], Array.getElem?_eq_getElem h⟩

/-- **A place that is there can be written**, and no other changes. -/
theorem exists_write? {row : Array Nat} (h : j < row.size) (entry : Nat) :
    ∃ row', write? row j entry = some row' ∧ row'.size = row.size
      ∧ row'[j]? = some entry ∧ ∀ k, k ≠ j → row'[k]? = row[k]? := by
  refine ⟨row.set j entry h, dif_pos h, Array.size_set h, ?_, ?_⟩
  · exact Array.getElem?_set_self h
  · intro k hk
    exact Array.getElem?_set_ne h hk.symm

/-- **A step writes the next entry**, and finds all that it reads. -/
theorem HoldsPass.step? {pass : Pass} (h : HoldsPass xs ys i j pass)
    (hi : i < xs.size) (hj : j < ys.size) :
    ∃ pass', pass.step? xs ys (i + 1) (j + 1) = some pass'
      ∧ HoldsPass xs ys i (j + 1) pass' := by
  obtain ⟨row, diagonal⟩ := pass
  have hsize : row.size = ys.size + 1 := h.size
  have hplace : j + 1 < row.size := by omega
  obtain ⟨above, habove⟩ := exists_read hplace
  obtain ⟨left, hleft⟩ := exists_read (Nat.lt_of_succ_lt hplace)
  obtain ⟨x, hx⟩ := exists_read hi
  obtain ⟨y, hy⟩ := exists_read hj
  have hold := h.unwritten (j + 1) above (Nat.lt_succ_self j) habove
  have hentry := Entry.succ_succ hx hy hold
    (h.written j left (Nat.le_refl j) hleft) h.diagonal
  obtain ⟨row', hwrite, hsize', hself, hother⟩ := exists_write? hplace
    (min (min (above + 1) (left + 1)) (diagonal + if x = y then 0 else 1))
  refine ⟨⟨row', above⟩, ?_, hsize'.trans hsize, ?_, ?_, hold⟩
  · simp only [Pass.step?, before?, habove, hleft, hx, hy, hwrite,
      Option.bind_eq_bind, Option.bind_some]
    rfl
  · intro k d hk hd
    by_cases hkj : k = j + 1
    · subst hkj
      cases hself.symm.trans hd
      exact hentry
    · exact h.written k d (by omega) ((hother k hkj).symm.trans hd)
  · intro k d hk hd
    exact h.unwritten k d (by omega)
      ((hother k (by omega)).symm.trans hd)

/-- A loop from one on keeps what each of its steps keeps, and comes to its
end if no step fails. -/
theorem exists_foldlM_range' {σ : Type} {f : σ → Nat → Option σ}
    {P : Nat → σ → Prop} {s : σ} (n : Nat) (h : P 0 s)
    (hstep : ∀ k < n, ∀ s, P k s → ∃ s', f s (k + 1) = some s'
      ∧ P (k + 1) s') :
    ∃ s', (List.range' 1 n).foldlM f s = some s' ∧ P n s' := by
  induction n with
  | zero => exact ⟨s, rfl, h⟩
  | succ n ih =>
    obtain ⟨s₁, hs₁, h₁⟩ := ih
      (fun k hk => hstep k (Nat.lt_succ_of_lt hk))
    obtain ⟨s₂, hs₂, h₂⟩ := hstep n (Nat.lt_succ_self n) s₁ h₁
    refine ⟨s₂, ?_, h₂⟩
    rw [List.range'_1_concat, List.foldlM_append, hs₁, Nat.add_comm 1 n]
    simp [hs₂]

/-- **A row is written over by the next one.** -/
theorem HoldsRow.nextRow? {row : Array Nat} (h : HoldsRow xs ys i row)
    (hi : i < xs.size) :
    ∃ row', nextRow? xs ys row (i + 1) = some row'
      ∧ HoldsRow xs ys (i + 1) row' := by
  have hplace : 0 < row.size := by rw [h.size]; omega
  obtain ⟨diagonal, hdiagonal⟩ := exists_read hplace
  obtain ⟨row₀, hwrite, hsize, hself, hother⟩ :=
    exists_write? hplace (i + 1)
  -- the first entry is written before the pass over the others
  have hstart : HoldsPass xs ys i 0 ⟨row₀, diagonal⟩ := by
    refine ⟨hsize.trans h.size, ?_, ?_, h.entry 0 diagonal hdiagonal⟩
    · intro k d hk hd
      obtain rfl := Nat.le_zero.mp hk
      cases hself.symm.trans hd
      exact entry_zero_right ys hi
    · intro k d hk hd
      exact h.entry k d ((hother k (by omega)).symm.trans hd)
  obtain ⟨pass, hpass, hdone⟩ := exists_foldlM_range' ys.size hstart
    (fun j hj pass hpass => hpass.step? hi hj)
  refine ⟨pass.row, ?_, hdone.size, fun j d hd => ?_⟩
  · simp only [EditDistance.nextRow?, hdiagonal, hwrite, hpass,
      Option.bind_eq_bind, Option.bind_some]
    rfl
  · have hj := (Array.getElem?_eq_some_iff.mp hd).1
    rw [hdone.size] at hj
    exact hdone.written j d (Nat.le_of_lt_succ hj) hd

/-- The row that the table begins with. -/
theorem holdsRow_zero (xs ys : Array Char) :
    HoldsRow xs ys 0 (List.range (ys.size + 1)).toArray := by
  refine ⟨by simp, fun j d hd => ?_⟩
  rw [List.getElem?_toArray, List.getElem?_eq_some_iff] at hd
  obtain ⟨hj, rfl⟩ := hd
  rw [List.length_range] at hj
  rw [List.getElem_range]
  exact entry_zero_left xs (Nat.le_of_lt_succ hj)

end Rows

/-- **The distance is found**: no access fails, and what comes out is the
cost of a cheapest alignment. -/
theorem exists_distance? (xs ys : Array Char) :
    ∃ d, distance? xs ys = some d
      ∧ IsLeast {n | Alignment xs.toList ys.toList n} d := by
  unfold distance?
  split
  · next hxs =>
    rw [Array.isEmpty_iff.mp hxs]
    exact ⟨ys.size, rfl, isLeast_alignment_nil_left ys.toList⟩
  · split
    · next hys =>
      rw [Array.isEmpty_iff.mp hys]
      exact ⟨xs.size, rfl, isLeast_alignment_nil_right xs.toList⟩
    · obtain ⟨row, hrow, hlast⟩ := exists_foldlM_range' xs.size
        (holdsRow_zero xs ys) (fun i hi row hrow => hrow.nextRow? hi)
      have hplace : ys.size < row.size := by
        rw [hlast.size]
        exact Nat.lt_succ_self _
      obtain ⟨d, hd⟩ := exists_read hplace
      have hentry := hlast.entry ys.size d hd
      rw [Entry, ← Array.length_toList, ← Array.length_toList,
        List.take_length, List.take_length] at hentry
      refine ⟨d, ?_, isLeast_alignment_reverse hentry⟩
      rw [hrow]
      exact hd

end EditDistance

/-- **Only a text itself is no edit away** from it. -/
theorem editDistance_eq_zero_iff {a b : String} :
    editDistance a b = 0 ↔ a = b := by
  obtain ⟨d, hd, halign, hleast⟩ :=
    EditDistance.exists_distance? a.toList.toArray b.toList.toArray
  rw [editDistance, hd, Option.getD_some]
  constructor
  · intro hzero
    exact String.toList_injective (Alignment.eq_of_cost_zero halign hzero)
  · rintro rfl
    exact Nat.le_zero.mp (hleast (Alignment.refl a.toList))

/-- **The edit distance is minimal.** The computation with the one row comes
to its end, every index being in bounds, with the length of a shortest
script of edits that makes the second text from the first. -/
theorem editDistance_isLeast (a b : String) :
    EditDistance.distance? a.toList.toArray b.toList.toArray
        = some (editDistance a b)
      ∧ IsLeast {n | ∃ script, script.length = n
          ∧ Edit.applyAll script a.toList = some b.toList}
        (editDistance a b) := by
  obtain ⟨d, hd, hleast⟩ :=
    EditDistance.exists_distance? a.toList.toArray b.toList.toArray
  have hdist : editDistance a b = d := by
    rw [editDistance, hd, Option.getD_some]
  rw [hdist]
  exact ⟨hd, isLeast_script_of_alignment hleast⟩

end PredicateScript
