import PredicateScript.Proofs.Annotation
import PredicateScript.Proofs.Framing
import PredicateScript.Proofs.Reading

/-!
# What the text of a script determines

The reader of `PredicateScript.Proofs.Reading` undoes the printer wherever
the tags show which conditional a field is read from. The two texts of
this library differ in that.

In the text of a checked script there is a type after every node, so
there is no more to ask for than that the names can be told from the rest
of the text. Checked scripts with plain names are the same where their
texts are (`TypedExpr.render_inj`).

In the text of a script as it is handed over nothing marks the end of a
conditional: `if (c) then a else b.f` is the text of a conditional whose
second branch reads a field, and also of the access to a field of a
conditional. `Term.normalise` gives each script the first of these forms,
by moving every field that is read from a conditional into the second
branch of it. This does not change the text, a script in that form is
legible, and so the texts of two scripts are the same exactly where their
normal forms are (`Expr.render_eq_iff`).

The text is that of one script only where no field can be moved either
way. It does not help that no field is read from a conditional
(`Term.Settled`): such a script is its own normal form, but a field that
is read by a second branch could as well have been read from the
conditional (`Expr.settled_text_shared`). Where that is excluded too
(`Term.NoElseReads`), there is no other script of the text.
-/

namespace PredicateScript

open Reader

/-! ## Types -/

/-- The type that a word is, if it is one. -/
def Ty.ofWord? (w : List Char) : Option Ty :=
  [Ty.long, .boolean, .byteVector, .string].find? (·.render.toList = w)

/-- **Read a type.** -/
def Reader.ty : Reader Ty := fun s =>
  let (w, s) := word s
  if w = "TYPEREF".toList then do
    let s ← expect "(" s
    let (name, s) ← name s
    let s ← expect ")" s
    return (.named name, s)
  else (Ty.ofWord? w).map (·, s)

/-- The name in a type, if there is one, is plain. -/
def Ty.IsPlain (ty : Ty) : Prop :=
  ∀ name ∈ ty.name?, isPlainName name = true

instance : DecidablePred Ty.IsPlain :=
  fun ty => inferInstanceAs (Decidable (∀ name ∈ ty.name?, _))

theorem Reader.ty_of_word {ty : Ty} {rest : List Char}
    (hty : ty.render.toList.all isWordChar = true)
    (hne : ty.render.toList ≠ "TYPEREF".toList)
    (hword : Ty.ofWord? ty.render.toList = some ty)
    (hrest : WordEnds rest) :
    Reader.ty (ty.render.toList ++ rest) = some (ty, rest) := by
  rw [Reader.ty, word_append hty hrest]
  simp only [hne, if_false, hword, Option.map_some]

/-- **A type is read as it was written.** -/
theorem Reader.ty_render {ty : Ty} {rest : List Char} (hty : ty.IsPlain)
    (hrest : WordEnds rest) :
    Reader.ty (ty.render.toList ++ rest) = some (ty, rest) := by
  cases ty with
  | named name =>
    have hname : isPlainName name = true := hty name rfl
    have hsplit : "TYPEREF(" = "TYPEREF" ++ "(" := rfl
    have hopen := wordEnds_append (w := "(") rfl rfl
    have hclose := wordEnds_append (w := ")") rfl rfl
    have htext : (Ty.named name).render.toList ++ rest
        = "TYPEREF".toList ++ ("(".toList ++ (name.toList
          ++ (")".toList ++ rest))) := by
      simp only [Ty.render, hsplit, String.toList_append, List.append_assoc]
    rw [htext, Reader.ty, word_append (by decide) (hopen _)]
    dsimp only
    rw [if_pos rfl, expect_append]
    simp only [name_append hname (hclose _), expect_append,
      Option.bind_eq_bind, Option.bind_some, Option.pure_def]
  | _ => exact ty_of_word (by decide) (by decide) rfl hrest

/-! ## Checked scripts -/

theorem head?_typeTag (ty : Ty) :
    (": " ++ ty.render).toList.head? = some ':' := by
  rw [String.toList_append]
  rfl

/-- **The tags of a checked script**: a colon and the type. -/
def typeTags : Tagging Ty where
  tag ty := ": " ++ ty.render
  read s := (expect ": " s).bind Reader.ty
  Valid := Ty.IsPlain
  read_tag hty hrest := by
    rw [String.toList_append, List.append_assoc, expect_append]
    exact ty_render hty hrest.wordEnds
  tag_eq ty := .inr (head?_typeTag ty)

/-- **All names in the types of a checked script are plain.** -/
def TypedExpr.TypesPlain (t : TypedExpr) : Prop :=
  ∀ node ∈ t.nodes, node.note.IsPlain

instance (t : TypedExpr) : Decidable t.TypesPlain :=
  inferInstanceAs (Decidable (∀ node ∈ t.nodes, _))

theorem TypedExpr.legible {t : TypedExpr} (hnames : t.NamesPlain)
    (htypes : t.TypesPlain) : typeTags.Legible t where
  names := hnames
  notes := htypes
  targets {_ ty _ _ _ _} _ hempty := by
    have hcolon : (typeTags.tag ty).toList.head? = some ':' :=
      head?_typeTag ty
    rw [hempty] at hcolon
    cases hcolon

/-- **The text of a checked script determines it**, whatever its types
are, where the names in it are plain: the names of variables, functions,
bindings, fields and types. -/
theorem TypedExpr.render_inj {t u : TypedExpr} (ht : t.NamesPlain)
    (ht' : t.TypesPlain) (hu : u.NamesPlain) (hu' : u.TypesPlain) :
    t.render = u.render ↔ t = u := by
  constructor
  · exact Tagging.eq_of_renderWith_eq (TypedExpr.legible ht ht')
      (TypedExpr.legible hu hu')
  · rintro rfl
    rfl

/-- A field that is read from a conditional and one that is read in its
second branch: the texts have the same words in the same order, and one
type more after `b` or after `next`. -/
theorem TypedExpr.render_inj_next :
    let node : Ty := .named "Node"
    let cond : TypedExpr := .lit .boolean (.bool true)
    let t : TypedExpr := .access node
      (.ifElse node cond (.ref node "a") (.ref node "b")) "next"
    let u : TypedExpr := .ifElse node cond (.ref node "a")
      (.access node (.ref node "b") "next")
    (t.NamesPlain ∧ t.TypesPlain) ∧ (u.NamesPlain ∧ u.TypesPlain)
      ∧ t.render ≠ u.render := by
  intro node cond t u
  have ht : t.NamesPlain ∧ t.TypesPlain := by decide
  have hu : u.NamesPlain ∧ u.TypesPlain := by decide
  refine ⟨ht, hu, fun h => ?_⟩
  have heq : t = u := (TypedExpr.render_inj ht.1 ht.2 hu.1 hu.2).mp h
  simp [t, u] at heq

/-! ## Fields of conditionals -/

namespace Term

variable {α : Type}

/-- A node that reads a field from a conditional. -/
def readsConditional : Term α → Bool
  | access _ (ifElse ..) _ => true
  | _ => false

/-- **No field is read from a conditional** anywhere in a tree. -/
def Settled (t : Term α) : Prop :=
  ∀ node ∈ t.nodes, node.readsConditional = false

instance (t : Term α) : Decidable t.Settled :=
  inferInstanceAs (Decidable (∀ node ∈ t.nodes, _))

/-- A conditional whose second branch reads a field. -/
def readsInElse : Term α → Bool
  | ifElse _ _ _ (access ..) => true
  | _ => false

/-- **No second branch of a conditional reads a field**, anywhere in a
tree. -/
def NoElseReads (t : Term α) : Prop :=
  ∀ node ∈ t.nodes, node.readsInElse = false

instance (t : Term α) : Decidable t.NoElseReads :=
  inferInstanceAs (Decidable (∀ node ∈ t.nodes, _))

/-- What holds of all nodes holds of the root and of the nodes of all
parts. -/
theorem forall_mem_nodes_iff {P : Term α → Prop} {t : Term α} :
    (∀ node ∈ t.nodes, P node)
      ↔ P t ∧ ∀ u ∈ t.parts, ∀ node ∈ u.nodes, P node := by
  rw [nodes_eq, List.forall_mem_cons, List.forall_mem_flatMap]

theorem namesPlain_iff {t : Term α} :
    t.NamesPlain ↔ (∀ name ∈ t.ownName?, isPlainName name = true)
      ∧ ∀ u ∈ t.parts, u.NamesPlain :=
  forall_mem_nodes_iff

theorem settled_iff {t : Term α} :
    t.Settled ↔ t.readsConditional = false ∧ ∀ u ∈ t.parts, u.Settled :=
  forall_mem_nodes_iff

theorem noElseReads_iff {t : Term α} :
    t.NoElseReads ↔ t.readsInElse = false ∧ ∀ u ∈ t.parts, u.NoElseReads :=
  forall_mem_nodes_iff

/-- **Induction over a tree**, from the parts to the node. -/
theorem induction_on_parts {P : Term α → Prop}
    (hnode : ∀ t, (∀ u ∈ t.parts, P u) → P t) (t : Term α) : P t :=
  hnode t (fun u _ => induction_on_parts hnode u)
termination_by t.height
decreasing_by exact height_lt_of_mem_parts ‹_›

/-- Induction over a tree, with the field accesses as a case of their
own. -/
theorem induction_on_fields {P : Term α → Prop}
    (haccess : ∀ n target f, P target → P (.access n target f))
    (hother : ∀ t, (∀ n u f, t ≠ .access n u f) → (∀ u ∈ t.parts, P u) →
      P t) (t : Term α) : P t := by
  induction t using induction_on_parts with
  | hnode t ih =>
    by_cases h : ∃ n target f, t = .access n target f
    · obtain ⟨n, target, f, rfl⟩ := h
      exact haccess n target f (ih target List.mem_cons_self)
    · exact hother t (fun n u f heq => h ⟨n, u, f, heq⟩) ih

/-! ## The normal form -/

/-- **Read a field from a script**: from its second branch where it is a
conditional, and from the second branch of that if it is one too. -/
def readInElse (field : String) : Expr → Expr
  | ifElse n cond ifTrue ifFalse =>
    .ifElse n cond ifTrue (readInElse field ifFalse)
  | e => .access () e field

mutual

/-- **The normal form of a script**: each field that is read from a
conditional is read in the second branch of it instead. -/
def normalise : Expr → Expr
  | lit n value => .lit n value
  | ref n name => .ref n name
  | access _ target field => readInElse field target.normalise
  | call n function args => .call n function (normaliseEach args)
  | binary n op left right => .binary n op left.normalise right.normalise
  | block n body => .block n body.normalise
  | letIn n name value body =>
    .letIn n name value.normalise body.normalise
  | ifElse n cond ifTrue ifFalse =>
    .ifElse n cond.normalise ifTrue.normalise ifFalse.normalise

/-- `normalise` on each script of a list. -/
def normaliseEach : List Expr → List Expr
  | [] => []
  | e :: es => e.normalise :: normaliseEach es

end

@[simp] theorem normaliseEach_eq_map (es : List Expr) :
    normaliseEach es = es.map normalise := by
  induction es with
  | nil => rfl
  | cons e es ih => rw [normaliseEach, ih, List.map_cons]

/-- Where no field is read, only the parts of a node change. -/
theorem normalise_eq_rebuild {e : Expr} (h : ∀ n u f, e ≠ .access n u f) :
    e.normalise = e.rebuild () (e.parts.map normalise) := by
  cases e with
  | access n u f => exact absurd rfl (h n u f)
  | call n function args => rw [normalise, normaliseEach_eq_map]; rfl
  | _ => rfl

theorem ownName?_rebuild :
    ∀ {e : Expr} {us : List Expr}, us.length = e.parts.length →
      (e.rebuild () us).ownName? = e.ownName?
  | .lit .., [], _ | .ref .., [], _ | .access .., [_], _
  | .call .., _, _ | .binary .., [_, _], _ | .block .., [_], _
  | .letIn .., [_, _], _ | .ifElse .., [_, _, _], _ => rfl

theorem readsConditional_access {n : α} {target : Term α} {field : String}
    (h : ∀ n c a b, target ≠ .ifElse n c a b) :
    (access n target field).readsConditional = false := by
  cases target with
  | ifElse n c a b => exact absurd rfl (h n c a b)
  | _ => rfl

theorem readsConditional_rebuild :
    ∀ {e : Expr} {us : List Expr}, us.length = e.parts.length →
      (∀ n u f, e ≠ .access n u f) →
      (e.rebuild () us).readsConditional = false
  | .access n u f, _, _, h => absurd rfl (h n u f)
  | .lit .., [], _, _ | .ref .., [], _, _ | .call .., _, _, _
  | .binary .., [_, _], _, _ | .block .., [_], _, _
  | .letIn .., [_, _], _, _ | .ifElse .., [_, _, _], _, _ => rfl

/-! ## The normal form keeps the names -/

theorem namesPlain_readInElse {field : String}
    (hfield : isPlainName field = true) {e : Expr} (he : e.NamesPlain) :
    (readInElse field e).NamesPlain := by
  fun_induction readInElse field e with
  | case1 n cond ifTrue ifFalse ih =>
    obtain ⟨hown, hparts⟩ := namesPlain_iff.mp he
    have hcond := hparts cond (by simp [parts])
    have hifTrue := hparts ifTrue (by simp [parts])
    have hifFalse := ih (hparts ifFalse (by simp [parts]))
    exact namesPlain_iff.mpr ⟨hown, by simp [parts, hcond, hifTrue, hifFalse]⟩
  | case2 e _ =>
    refine namesPlain_iff.mpr ⟨?_, ?_⟩
    · rintro _ ⟨⟩
      exact hfield
    · simp [parts, he]

theorem namesPlain_normalise {e : Expr} (he : e.NamesPlain) :
    e.normalise.NamesPlain := by
  induction e using induction_on_fields with
  | haccess n target field ih =>
    obtain ⟨hown, hparts⟩ := namesPlain_iff.mp he
    exact namesPlain_readInElse (hown field rfl)
      (ih (hparts target List.mem_cons_self))
  | hother e hother ih =>
    obtain ⟨hown, hparts⟩ := namesPlain_iff.mp he
    have hlen : (e.parts.map normalise).length = e.parts.length :=
      List.length_map _
    rw [normalise_eq_rebuild hother, namesPlain_iff, ownName?_rebuild hlen,
      parts_rebuild () hlen, List.forall_mem_map]
    exact ⟨hown, fun u hu => ih u hu (hparts u hu)⟩

/-! ## The normal form is settled -/

theorem settled_readInElse (field : String) {e : Expr} (he : e.Settled) :
    (readInElse field e).Settled := by
  fun_induction readInElse field e with
  | case1 n cond ifTrue ifFalse ih =>
    obtain ⟨-, hparts⟩ := settled_iff.mp he
    have hcond := hparts cond (by simp [parts])
    have hifTrue := hparts ifTrue (by simp [parts])
    have hifFalse := ih (hparts ifFalse (by simp [parts]))
    exact settled_iff.mpr ⟨rfl, by simp [parts, hcond, hifTrue, hifFalse]⟩
  | case2 e h =>
    exact settled_iff.mpr ⟨readsConditional_access h, by simp [parts, he]⟩

theorem settled_normalise (e : Expr) : e.normalise.Settled := by
  induction e using induction_on_fields with
  | haccess n target field ih => exact settled_readInElse field ih
  | hother e hother ih =>
    have hlen : (e.parts.map normalise).length = e.parts.length :=
      List.length_map _
    rw [normalise_eq_rebuild hother, settled_iff, parts_rebuild () hlen,
      List.forall_mem_map]
    exact ⟨readsConditional_rebuild hlen hother, ih⟩

theorem normalise_of_settled {e : Expr} (he : e.Settled) :
    e.normalise = e := by
  induction e using induction_on_fields with
  | haccess n target field ih =>
    obtain ⟨hown, hparts⟩ := settled_iff.mp he
    rw [normalise, ih (hparts target List.mem_cons_self)]
    unfold readInElse
    split
    · cases hown
    · rfl
  | hother e hother ih =>
    obtain ⟨-, hparts⟩ := settled_iff.mp he
    have hmap : e.parts.map normalise = e.parts :=
      calc e.parts.map normalise
          = e.parts.map id :=
            List.map_congr_left (fun u hu => ih u hu (hparts u hu))
        _ = e.parts := List.map_id _
    rw [normalise_eq_rebuild hother, hmap]
    exact rebuild_parts e

/-- A script is its normal form exactly where no field is read from a
conditional. -/
theorem normalise_eq_self_iff (e : Expr) : e.normalise = e ↔ e.Settled :=
  ⟨fun h => h ▸ settled_normalise e, normalise_of_settled⟩

/-! ## The normal form keeps the text -/

/-- A node is written from the texts of its parts. -/
theorem renderWith_rebuild (tag : α → String) :
    ∀ {t : Term α} {us : List (Term α)}, us.length = t.parts.length →
      us.map (renderWith tag) = t.parts.map (renderWith tag) →
      (t.rebuild t.note us).renderWith tag = t.renderWith tag
  | .lit .., [], _, _ | .ref .., [], _, _ => rfl
  | .access .., [_], _, h | .binary .., [_, _], _, h | .block .., [_], _, h
  | .letIn .., [_, _], _, h | .ifElse .., [_, _, _], _, h => by
    simp only [parts, List.map_cons, List.map_nil, List.cons.injEq] at h
    simp only [rebuild, renderWith, note, h]
  | .call .., us, _, h => by
    simp only [parts] at h
    simp only [rebuild, renderWith, renderEach_eq_map, note, h]

theorem render_readInElse (field : String) (e : Expr) :
    (readInElse field e).render = e.render ++ "." ++ field := by
  fun_induction readInElse field e with
  | case1 n cond ifTrue ifFalse ih =>
    simp only [Expr.render, renderWith, String.append_assoc,
      String.append_empty] at ih ⊢
    rw [ih]
  | case2 e _ =>
    simp only [Expr.render, renderWith, String.append_empty]

theorem render_normalise (e : Expr) : e.normalise.render = e.render := by
  induction e using induction_on_fields with
  | haccess n target field ih =>
    rw [normalise, render_readInElse, ih]
    simp only [Expr.render, renderWith, String.append_empty]
  | hother e hother ih =>
    rw [normalise_eq_rebuild hother]
    refine renderWith_rebuild _ (List.length_map _) ?_
    rw [List.map_map]
    exact List.map_congr_left ih

/-! ## Where there is nothing to move -/

theorem readInElse_eq_access {field : String} {e : Expr}
    (h : ∀ n c a b, e ≠ .ifElse n c a b) :
    readInElse field e = .access () e field := by
  cases e with
  | ifElse n c a b => exact absurd rfl (h n c a b)
  | _ => rfl

/-- A field that is moved into a conditional is read by a second branch
then, of this conditional or of one that is its second branch. -/
theorem not_noElseReads_readInElse (field : String) {e : Expr}
    (h : ∃ n c a b, e = .ifElse n c a b) :
    ¬ (readInElse field e).NoElseReads := by
  fun_induction readInElse field e with
  | case1 n cond ifTrue ifFalse ih =>
    intro hnone
    obtain ⟨hroot, hparts⟩ := noElseReads_iff.mp hnone
    by_cases hif : ∃ n c a b, ifFalse = .ifElse n c a b
    · exact ih hif (hparts _ (by simp [parts]))
    · rw [readInElse_eq_access (fun n c a b heq => hif ⟨n, c, a, b, heq⟩)]
        at hroot
      cases hroot
  | case2 e hnot =>
    obtain ⟨n, c, a, b, heq⟩ := h
    exact absurd heq (hnot n c a b)

/-- **Where no second branch reads a field after all fields are moved, none
was moved.** -/
theorem settled_of_noElseReads_normalise {e : Expr}
    (h : e.normalise.NoElseReads) : e.Settled := by
  induction e using induction_on_fields with
  | haccess n target field ih =>
    have hnot : ∀ n c a b, target.normalise ≠ .ifElse n c a b :=
      fun n c a b heq =>
        not_noElseReads_readInElse field ⟨n, c, a, b, heq⟩ h
    rw [normalise, readInElse_eq_access hnot] at h
    have htarget : target.Settled :=
      ih ((noElseReads_iff.mp h).2 _ List.mem_cons_self)
    rw [normalise_of_settled htarget] at hnot
    exact settled_iff.mpr
      ⟨readsConditional_access hnot, by simp [parts, htarget]⟩
  | hother e hother ih =>
    have hlen : (e.parts.map normalise).length = e.parts.length :=
      List.length_map _
    rw [normalise_eq_rebuild hother, noElseReads_iff, parts_rebuild () hlen,
      List.forall_mem_map] at h
    refine settled_iff.mpr ⟨?_, fun u hu => ih u hu (h.2 u hu)⟩
    cases e with
    | access n u f => exact absurd rfl (hother n u f)
    | _ => rfl

/-- **A script has not its text to itself**: another one has it too. -/
def TextShared (e : Expr) : Prop :=
  ∃ e' : Expr, e' ≠ e ∧ e'.NamesPlain ∧ e'.render = e.render

/-- A field that the second branch reads can be read from the conditional
as well, and the text stays the same. -/
theorem textShared_of_readsInElse {e : Expr} (he : e.NamesPlain)
    (h : e.readsInElse = true) : TextShared e := by
  unfold readsInElse at h
  split at h
  · next n c a m b f =>
    obtain ⟨-, hparts⟩ := namesPlain_iff.mp he
    obtain ⟨hf, hb⟩ := namesPlain_iff.mp
      (hparts (.access m b f) (by simp [parts]))
    have hcond : (ifElse () c a b).NamesPlain := by
      have hc := hparts c (by simp [parts])
      have ha := hparts a (by simp [parts])
      have hb := hb b (by simp [parts])
      exact namesPlain_iff.mpr ⟨nofun, by simp [parts, hc, ha, hb]⟩
    refine ⟨.access () (.ifElse () c a b) f, nofun,
      namesPlain_iff.mpr ⟨hf, by simp [parts, hcond]⟩, ?_⟩
    simp only [Expr.render, renderWith, String.append_assoc,
      String.append_empty]
  · cases h

/-- Where a part has not its text to itself, neither has the whole. -/
theorem TextShared.of_part {e u : Expr} (h : TextShared u)
    (he : e.NamesPlain) (hu : u ∈ e.parts) : TextShared e := by
  obtain ⟨u', hne, hu', htext⟩ := h
  obtain ⟨hown, hplain⟩ := namesPlain_iff.mp he
  obtain ⟨before, after, hparts⟩ := List.append_of_mem hu
  have hlen : (before ++ u' :: after).length = e.parts.length := by
    simp [hparts]
  refine ⟨e.rebuild () (before ++ u' :: after), fun heq => hne ?_,
    namesPlain_iff.mpr ?_, renderWith_rebuild _ hlen ?_⟩
  · have hsame := parts_rebuild () hlen
    rw [heq, hparts] at hsame
    simpa using hsame.symm
  · rw [ownName?_rebuild hlen, parts_rebuild () hlen]
    rw [hparts] at hplain
    simp only [List.forall_mem_append, List.forall_mem_cons] at hplain ⊢
    exact ⟨hown, hplain.1, hu', hplain.2.2⟩
  · have htext : u'.renderWith (fun _ => "")
        = u.renderWith (fun _ => "") := htext
    rw [hparts, List.map_append, List.map_append, List.map_cons,
      List.map_cons, htext]

/-- **A script in which a second branch reads a field** has not its text
to itself. -/
theorem textShared_of_not_noElseReads {e : Expr} (he : e.NamesPlain)
    (h : ¬ e.NoElseReads) : TextShared e := by
  induction e using induction_on_parts with
  | hnode e ih =>
    by_cases hroot : e.readsInElse = true
    · exact textShared_of_readsInElse he hroot
    · have hpart : ∃ u ∈ e.parts, ¬ u.NoElseReads := by
        rw [noElseReads_iff, not_and, ← Bool.not_eq_true] at h
        simpa using h hroot
      obtain ⟨u, hu, hnone⟩ := hpart
      exact (ih u hu ((namesPlain_iff.mp he).2 u hu) hnone).of_part he hu

end Term

/-! ## Scripts -/

/-- **The tags of a script as it is handed over**: nothing is written. -/
def untagged : Tagging Unit where
  tag _ := ""
  read s := some ((), s)
  Valid _ := True
  read_tag _ _ := rfl
  tag_eq _ := .inl rfl

theorem Expr.legible {e : Expr} (hnames : e.NamesPlain)
    (hsettled : e.Settled) : untagged.Legible e where
  names := hnames
  notes _ _ := trivial
  targets hmem := absurd (hsettled _ hmem) Bool.noConfusion

/-- **Settled scripts of one text are one script.** -/
theorem Expr.eq_of_settled {e₁ e₂ : Expr} (h₁ : e₁.NamesPlain)
    (h₂ : e₂.NamesPlain) (hs₁ : e₁.Settled) (hs₂ : e₂.Settled)
    (h : e₁.render = e₂.render) : e₁ = e₂ :=
  Tagging.eq_of_renderWith_eq (Expr.legible h₁ hs₁) (Expr.legible h₂ hs₂) h

/-- The text of an accepted script is recorded. -/
theorem exists_lines_of_checkWith_accepted {config : Config} {Γ : Context}
    {e : Expr} {sink : Sink} {t : TypedExpr}
    (h : (checkWith config Γ e sink).1 = .accepted t) :
    ∃ events : List Event, (checkWith config Γ e sink).2.lines
      = sink.lines ++ framed config (events.map Event.line
        ++ [.recorded [("expr", e.render)],
          .event "script accepted" [("ty", t.ty.render)]]) := by
  have hverdict : (walkTranscript config Γ e).verdict = .ok t :=
    verdict_of_checkWith h
  cases htaken : ((sink.begun config).receiveAll
      (walkTranscript config Γ e).events).1 with
  | none =>
    have hlines := (checkWith_of_taken htaken).1
    rw [hverdict] at hlines
    exact ⟨_, hlines⟩
  | some fault =>
    -- a sink that breaks down on the way makes it a rejection
    obtain ⟨before, event, after, hevents, hbreaks⟩ :=
      Sink.exists_breaksOn_of_some htaken
    have houtcome := (checkWith_of_breaksOn hevents
      (Sink.breaksOn_begun_iff.mp hbreaks)).1
    rw [houtcome] at h
    cases h

/-- **Scripts of one text have one normal form.** -/
theorem Expr.normalise_eq_of_render_eq {e₁ e₂ : Expr} (h₁ : e₁.NamesPlain)
    (h₂ : e₂.NamesPlain) (h : e₁.render = e₂.render) :
    e₁.normalise = e₂.normalise := by
  refine Expr.eq_of_settled (Term.namesPlain_normalise h₁)
    (Term.namesPlain_normalise h₂) (Term.settled_normalise e₁)
    (Term.settled_normalise e₂) ?_
  rw [Term.render_normalise, Term.render_normalise, h]

/-- A script that has its text to itself is settled, and no second branch
in it reads a field. -/
theorem Expr.settled_and_noElseReads_of_unique {e : Expr}
    (he : e.NamesPlain)
    (h : ∀ e' : Expr, e'.NamesPlain → e'.render = e.render → e' = e) :
    e.Settled ∧ e.NoElseReads := by
  constructor
  · rw [← Term.normalise_eq_self_iff]
    exact h e.normalise (Term.namesPlain_normalise he)
      (Term.render_normalise e)
  · by_contra hnone
    obtain ⟨e', hne, he', htext⟩ :=
      Term.textShared_of_not_noElseReads he hnone
    exact hne (h e' he' htext)

/-- **What the text of a script determines**, where the names in it are
plain: its normal form, and no more than that. So to every text there is
one script in which no field is read from a conditional, and a script has
its text to itself exactly where no field in it is read from a conditional
and none by the second branch of one. The text is what the log has of an
accepted script. -/
theorem Expr.render_eq_iff {e₁ e₂ : Expr} (h₁ : e₁.NamesPlain)
    (h₂ : e₂.NamesPlain) :
    (e₁.render = e₂.render ↔ e₁.normalise = e₂.normalise)
      ∧ (∃! e : Expr, e.NamesPlain ∧ e.Settled ∧ e.render = e₁.render)
      ∧ ((∀ e : Expr, e.NamesPlain → e.render = e₁.render → e = e₁)
        ↔ e₁.Settled ∧ e₁.NoElseReads)
      ∧ ∀ (config : Config) (Γ : Context) (sink : Sink) (t : TypedExpr),
        (checkWith config Γ e₁ sink).1 = .accepted t →
        ∃ events : List Event, (checkWith config Γ e₁ sink).2.lines
          = sink.lines ++ framed config (events.map Event.line
            ++ [.recorded [("expr", e₁.render)],
              .event "script accepted" [("ty", t.ty.render)]]) := by
  refine ⟨⟨Expr.normalise_eq_of_render_eq h₁ h₂, fun h => ?_⟩,
    ⟨e₁.normalise, ?_, ?_⟩,
    ⟨Expr.settled_and_noElseReads_of_unique h₁, ?_⟩,
    fun config Γ sink t => exists_lines_of_checkWith_accepted⟩
  · rw [← Term.render_normalise e₁, h, Term.render_normalise]
  · exact ⟨Term.namesPlain_normalise h₁, Term.settled_normalise e₁,
      Term.render_normalise e₁⟩
  · rintro e ⟨he, hsettled, htext⟩
    rw [← Expr.normalise_eq_of_render_eq he h₁ htext]
    exact (Term.normalise_of_settled hsettled).symm
  · rintro ⟨hsettled, hnone⟩ e he htext
    have hnormal : e.normalise = e₁ := by
      rw [Expr.normalise_eq_of_render_eq he h₁ htext]
      exact Term.normalise_of_settled hsettled
    -- nothing was moved on the way to the normal form
    have hself : e.Settled :=
      Term.settled_of_noElseReads_normalise (hnormal ▸ hnone)
    rw [← hnormal, Term.normalise_of_settled hself]

/-- `if (true) then a else b.next` is recorded of an accepted script that
reads the field from the conditional. It is the text of another script as
well, in which no field is read from a conditional, and not the text of a
script with a block around the conditional. That one has its text to
itself. -/
theorem Expr.render_eq_iff_next :
    let Γ := Context.empty
      |>.withType "Node" ⟨[("next", .named "Node")]⟩
      |>.bind "a" (.named "Node")
      |>.bind "b" (.named "Node")
    let cond : Expr := .lit () (.bool true)
    let outer : Expr := .access ()
      (.ifElse () cond (.ref () "a") (.ref () "b")) "next"
    let inner : Expr := .ifElse () cond (.ref () "a")
      (.access () (.ref () "b") "next")
    let wrapped : Expr := .access ()
      (.block () (.ifElse () cond (.ref () "a") (.ref () "b"))) "next"
    let result := checkWith {} Γ outer (Sink.fresh none)
    (outer.NamesPlain ∧ inner.NamesPlain ∧ wrapped.NamesPlain)
      ∧ outer.render = inner.render ∧ outer.render ≠ wrapped.render
      ∧ (∀ e : Expr, e.NamesPlain → e.render = wrapped.render → e = wrapped)
      ∧ (∃ t, result.1 = .accepted t)
      ∧ .recorded [("expr", "if (true) then a else b.next")]
        ∈ result.2.lines := by
  intro Γ cond outer inner wrapped result
  have houter : outer.NamesPlain := by decide
  have hinner : inner.NamesPlain := by decide
  have hwrapped : wrapped.NamesPlain := by decide
  have haccepted : ∃ t, result.1 = .accepted t := ⟨_, rfl⟩
  refine ⟨⟨houter, hinner, hwrapped⟩, ?_, ?_, ?_, haccepted, ?_⟩
  · exact (Expr.render_eq_iff houter hinner).1.mpr rfl
  · intro h
    cases (Expr.render_eq_iff houter hwrapped).1.mp h
  · exact (Expr.render_eq_iff hwrapped hwrapped).2.2.1.mpr (by decide)
  · obtain ⟨t, ht⟩ := haccepted
    obtain ⟨events, hlines⟩ :=
      (Expr.render_eq_iff houter hinner).2.2.2 {} Γ (Sink.fresh none) t ht
    have htext : outer.render = "if (true) then a else b.next" := rfl
    show _ ∈ (checkWith {} Γ outer (Sink.fresh none)).2.lines
    rw [hlines, htext]
    simp [framed]

/-- **A settled script need not have its text to itself.** No field is read
from a conditional in `if (true) then a else b.next`, which is accepted;
and the script that reads the field from the conditional is accepted in the
same context, and the same text is recorded of it. -/
theorem Expr.settled_text_shared :
    let Γ := Context.empty
      |>.withType "Node" ⟨[("next", .named "Node")]⟩
      |>.bind "a" (.named "Node")
      |>.bind "b" (.named "Node")
    let cond : Expr := .lit () (.bool true)
    let inner : Expr := .ifElse () cond (.ref () "a")
      (.access () (.ref () "b") "next")
    let outer : Expr := .access ()
      (.ifElse () cond (.ref () "a") (.ref () "b")) "next"
    let recordedOf (e : Expr) (text : String) : Prop :=
      (∃ t, (checkWith {} Γ e (Sink.fresh none)).1 = .accepted t)
        ∧ .recorded [("expr", text)]
          ∈ (checkWith {} Γ e (Sink.fresh none)).2.lines
    inner.NamesPlain ∧ outer.NamesPlain ∧ inner.Settled ∧ inner ≠ outer
      ∧ recordedOf inner "if (true) then a else b.next"
      ∧ recordedOf outer "if (true) then a else b.next"
      ∧ ¬ ((∀ e : Expr, e.NamesPlain → e.render = inner.render → e = inner)
        ↔ inner.Settled) := by
  intro Γ cond inner outer recordedOf
  have houter : outer.NamesPlain := by decide
  have hsettled : inner.Settled := by decide
  have hne : inner ≠ outer := nofun
  refine ⟨by decide, houter, hsettled, hne, ⟨⟨_, rfl⟩, by decide⟩,
    ⟨⟨_, rfl⟩, by decide⟩, fun h => ?_⟩
  exact hne (h.mpr hsettled outer houter rfl).symm

end PredicateScript
