import PredicateScript.Term
import Mathlib.Data.List.Basic

/-!
# Parts and positions of a script tree

A node has **parts**, the trees directly below it, and it is read as one:
whatever kind of node it is, it is its own fields and the list of its
parts. Statements about all kinds of node at once are statements about
`Term.parts`, and `Term.rebuild` puts a node of the same kind together
from other parts.

A **position** is the way from the root to a node, the index of a part at
each step; `Term.node?` reads the node at a position. Most steps stay in
the scope they start from. The one that does not is the step into the body
of a binding, and `Term.binding?` says which name it adds and for which
value.
-/

namespace PredicateScript

namespace Term

variable {α β : Type}

/-- **The parts of a node**, from left to right. -/
def parts : Term α → List (Term α)
  | lit .. | ref .. => []
  | access _ target _ => [target]
  | call _ _ args => args
  | binary _ _ left right => [left, right]
  | block _ body => [body]
  | letIn _ _ value body => [value, body]
  | ifElse _ cond ifTrue ifFalse => [cond, ifTrue, ifFalse]

/-- **A node of the same kind over other parts**, with a note of its own.
Where the number of parts is not that of the node, the parts it has stay
and are all given the note. -/
def rebuild (t : Term α) (n : β) (us : List (Term β)) : Term β :=
  match t, us with
  | lit _ value, _ => .lit n value
  | ref _ name, _ => .ref n name
  | access _ _ field, [target] => .access n target field
  | call _ function _, args => .call n function args
  | binary _ op _ _, [left, right] => .binary n op left right
  | block _ _, [body] => .block n body
  | letIn _ name _ _, [value, body] => .letIn n name value body
  | ifElse .., [cond, ifTrue, ifFalse] => .ifElse n cond ifTrue ifFalse
  | t, _ => t.map (fun _ => n)

/-- **The node at a position**, if the tree has one there. -/
def node? : Term α → List Nat → Option (Term α)
  | t, [] => some t
  | t, i :: p => t.parts[i]?.bind (fun u => u.node? p)

/-- **What a node binds for one of its parts**: a binding binds its name
to its value for its body, and nothing else binds anything. -/
def binding? : Term α → Nat → Option (String × Term α)
  | letIn _ name value _, 1 => some (name, value)
  | _, _ => none

@[simp] theorem node?_cons (t : Term α) (i : Nat) (p : List Nat) :
    t.node? (i :: p) = t.parts[i]?.bind (fun u => u.node? p) := rfl

/-! ## A node read through its parts -/

/-- The highest tree of a list is within a bound where all of them are. -/
theorem heightEach_le_iff {b : Nat} (ts : List (Term α)) :
    heightEach ts ≤ b ↔ ∀ t ∈ ts, t.height ≤ b := by
  induction ts with
  | nil => simp [heightEach]
  | cons t ts ih => rw [heightEach, Nat.max_le, ih, List.forall_mem_cons]

/-- A tree is one level higher than its highest part. -/
theorem height_le_succ_iff {b : Nat} (t : Term α) :
    t.height ≤ b + 1 ↔ ∀ u ∈ t.parts, u.height ≤ b := by
  cases t with
  | call _ _ args =>
    rw [height, Nat.add_le_add_iff_right, heightEach_le_iff]
    rfl
  | lit | ref | access | block => simp [height, parts]
  | binary | letIn | ifElse =>
    simp only [height, parts, Nat.add_le_add_iff_right, Nat.max_le,
      List.forall_mem_cons, List.not_mem_nil, false_implies, implies_true,
      and_true]

/-- No tree is empty. -/
theorem height_pos (t : Term α) : 0 < t.height := by
  cases t <;> simp [height]

/-- A part is not as high as the whole. -/
theorem height_lt_of_mem_parts {t u : Term α} (h : u ∈ t.parts) :
    u.height < t.height := by
  have hpos := t.height_pos
  have hle : u.height ≤ t.height - 1 :=
    (height_le_succ_iff t).mp (by omega) u h
  omega

/-- The nodes of a tree are its root and the nodes of its parts. -/
theorem nodes_eq (t : Term α) : t.nodes = t :: t.parts.flatMap nodes := by
  cases t <;> simp [nodes, parts]

/-! ## A node put together again -/

/-- The new node carries the new note. -/
@[simp] theorem note_rebuild (t : Term α) (n : β) (us : List (Term β)) :
    (t.rebuild n us).note = n := by
  unfold rebuild
  split
  case h_9 => exact note_map _ t
  all_goals rfl

/-- With the right number of parts, the parts of the new node are those
given. -/
theorem parts_rebuild (n : β) :
    ∀ {t : Term α} {us : List (Term β)}, us.length = t.parts.length →
      (t.rebuild n us).parts = us
  | .lit .., [], _ | .ref .., [], _ | .access .., [_], _
  | .call .., _, _ | .binary .., [_, _], _ | .block .., [_], _
  | .letIn .., [_, _], _ | .ifElse .., [_, _, _], _ => rfl

/-- A node over its own parts is the node. -/
theorem rebuild_parts (t : Term α) : t.rebuild t.note t.parts = t := by
  cases t <;> rfl

/-- The notes of a node put together from parts are read where they come
from. -/
theorem map_rebuild {γ : Type} (f : β → γ) (n : β) :
    ∀ {t : Term α} {us : List (Term β)}, us.length = t.parts.length →
      (t.rebuild n us).map f = t.rebuild (f n) (us.map (Term.map f))
  | .call .., us, _ => by simp [rebuild, map]
  | .lit .., [], _ | .ref .., [], _ | .access .., [_], _
  | .binary .., [_, _], _ | .block .., [_], _ | .letIn .., [_, _], _
  | .ifElse .., [_, _, _], _ => rfl

/-- **A script is put together again from its parts**: annotated parts
that erase to the parts of a script make an annotated node that erases to
the script. -/
theorem erase_rebuild (n : β) {e : Expr} {us : List (Term β)}
    (h : us.map erase = e.parts) : (e.rebuild n us).erase = e := by
  have hlen : us.length = e.parts.length := by
    rw [← h, List.length_map]
  calc (e.rebuild n us).erase
      = e.rebuild () (us.map erase) := map_rebuild _ n hlen
    _ = e.rebuild e.note e.parts := by rw [h]
    _ = e := rebuild_parts e

end Term

end PredicateScript
