import PredicateScript.Term.Printer
import PredicateScript.Proofs.Lexeme
import PredicateScript.Proofs.Position

/-!
# The text of a script can be read back

This module has a reader for scripts and says which scripts it reads back
from their text. One printer writes scripts with all kinds of notes, so
there is one reader too: a `Tagging` is a way to write and read the notes.

A script is read from the left. What it starts with tells which kind of
node it is, except for field accesses, which are told by what comes after
their target. So the reader takes a script as a **base** with **fields**
at its end (`Term.base`, `Term.fields`), reads the base by its kind
(`Tagging.primary`), and then as many fields as there are. The parts of a
base are lower than the script, and the number of levels that are left is
what the reader recurs on (`Tagging.term`).

Whether a script is read back depends on what comes after it. After a part
of a node there is a blank or one of a few marks (`Closed`), and there no
field is read. After a base there may also be a dot (`Ends`). This is
where conditionals are different: nothing closes them, so what comes after
a conditional comes after its second branch, and a field would be read from
that branch. It has to be their tag that shows where they end. A script is
`Legible` where this is so for each conditional that a field is read from,
where its names are plain, and where its notes can be read; legible scripts
are read back (`Tagging.term_append`), so no two of them have the same text
(`Tagging.eq_of_renderWith_eq`).
-/

namespace PredicateScript

/-- The name that a node has of its own: of a variable, a field, a function
or a binding. -/
def Term.ownName? {α : Type} : Term α → Option String
  | ref _ name | access _ _ name | call _ name _ | letIn _ name _ _ =>
    some name
  | _ => none

/-- **All names of a tree are plain.** -/
def Term.NamesPlain {α : Type} (t : Term α) : Prop :=
  ∀ node ∈ t.nodes, ∀ name ∈ node.ownName?, isPlainName name = true

instance {α : Type} (t : Term α) : Decidable t.NamesPlain :=
  inferInstanceAs (Decidable (∀ node ∈ t.nodes, ∀ name ∈ node.ownName?, _))

/-! ## The fields at the end of a script -/

namespace Term

variable {α : Type}

/-- **What the fields at the end of a script are read from.** -/
def base : Term α → Term α
  | access _ target _ => target.base
  | t => t

/-- **The fields at the end of a script**, with the notes of the accesses
to them, in the order they are written in. -/
def fields : Term α → List (String × α)
  | access n target field => target.fields ++ [(field, n)]
  | _ => []

/-- Read a field from a script. -/
def read (t : Term α) (field : String × α) : Term α :=
  .access field.2 t field.1

/-- A script is read from its base, field by field. -/
theorem foldl_read_fields (t : Term α) : t.fields.foldl read t.base = t := by
  fun_induction fields t with
  | case1 n target f ih =>
    rw [base, List.foldl_append, ih]
    rfl
  | case2 t h =>
    unfold base
    split
    · next n target f => exact absurd rfl (h n target f)
    · rfl

theorem base_ne_access (t : Term α) (n : α) (u : Term α) (f : String) :
    t.base ≠ .access n u f := by
  fun_induction base t with
  | case1 _ _ _ ih => exact ih
  | case2 t h => exact h n u f

theorem base_height_le (t : Term α) : t.base.height ≤ t.height := by
  fun_induction base t with
  | case1 _ _ _ ih => exact Nat.le_succ_of_le ih
  | case2 => exact Nat.le_refl _

/-- A field at the end of a script is accessed by a node of it. -/
theorem access_of_mem_fields {t : Term α} {f : String} {n : α}
    (h : (f, n) ∈ t.fields) : ∃ u, .access n u f ∈ t.nodes := by
  fun_induction fields t with
  | case1 m target g ih =>
    rw [nodes]
    rcases List.mem_append.mp h with h | h
    · obtain ⟨u, hu⟩ := ih h
      exact ⟨u, List.mem_cons_of_mem _ hu⟩
    · cases List.mem_singleton.mp h
      exact ⟨target, List.mem_cons_self⟩
  | case2 => cases h

/-- The first of the fields, if there is one, is a field of the base. -/
theorem access_base_of_fields_ne_nil {t : Term α} (h : t.fields ≠ []) :
    ∃ n f, .access n t.base f ∈ t.nodes := by
  fun_induction fields t with
  | case1 n target f ih =>
    rw [nodes, base]
    by_cases hnil : target.fields = []
    · have hbase : target.base = target := by
        simpa [hnil] using foldl_read_fields target
      rw [hbase]
      exact ⟨n, f, List.mem_cons_self⟩
    · obtain ⟨m, g, hmem⟩ := ih hnil
      exact ⟨m, g, List.mem_cons_of_mem _ hmem⟩
  | case2 => exact absurd rfl h

/-- The nodes of a node are nodes of the script. -/
theorem nodes_subset_of_mem_parts {t u : Term α} (h : u ∈ t.parts) :
    u.nodes ⊆ t.nodes := by
  intro node hnode
  rw [nodes_eq t]
  exact List.mem_cons_of_mem _ (List.mem_flatMap.mpr ⟨u, h, hnode⟩)

theorem nodes_base_subset (t : Term α) : t.base.nodes ⊆ t.nodes := by
  fun_induction base t with
  | case1 n target f ih =>
    exact fun node hnode => List.mem_cons_of_mem _ (ih hnode)
  | case2 t _ => exact List.Subset.refl _

theorem base_mem_nodes (t : Term α) : t.base ∈ t.nodes := by
  refine t.nodes_base_subset ?_
  rw [nodes_eq]
  exact List.mem_cons_self

end Term

/-! ## Where a script can end -/

/-- The marks that can come after a script which nothing is added to. -/
def closers : List Char := [' ', ')', ',', ';', ':']

/-- **A script may end here**: at the end of the text, or at a mark that
can come after it. -/
def Ends (s : List Char) : Prop :=
  ∀ c ∈ s.head?, c = '.' ∨ c ∈ closers

/-- **A script has to end here**: it may end, and no field is read from
it. -/
def Closed (s : List Char) : Prop :=
  ∀ c ∈ s.head?, c ∈ closers

theorem Closed.ends {s : List Char} (h : Closed s) : Ends s :=
  fun c hc => .inr (h c hc)

theorem Ends.wordEnds {s : List Char} (h : Ends s) : WordEnds s := by
  have hclosers : closers.all (fun c => !isWordChar c) = true := rfl
  intro c hc
  rcases h c hc with rfl | hmem
  · rfl
  · simpa using List.all_eq_true.mp hclosers c hmem

theorem closed_nil : Closed [] := nofun

theorem closed_append {w : String} {c : Char}
    (hw : w.toList.head? = some c) (hc : c ∈ closers) (s : List Char) :
    Closed (w.toList ++ s) :=
  forall_head?_append hw hc s

/-! ## Tags -/

/-- **A way to write and read the notes of a tree.** -/
structure Tagging (α : Type) where
  /-- What is written after a node. -/
  tag : α → String
  /-- Read a note. -/
  read : Reader α
  /-- The notes that can be read back. -/
  Valid : α → Prop
  /-- A note is read as it was written. -/
  read_tag : ∀ {n rest}, Valid n → Ends rest →
    read ((tag n).toList ++ rest) = some (n, rest)
  /-- A tag is empty or starts with a colon. -/
  tag_eq : ∀ n, tag n = "" ∨ (tag n).toList.head? = some ':'

namespace Tagging

open Reader

variable {α : Type} (K : Tagging α)

theorem ends_tag (n : α) {rest : List Char} (hrest : Ends rest) :
    Ends ((K.tag n).toList ++ rest) := by
  rcases K.tag_eq n with hempty | hcolon
  · rw [hempty]
    exact hrest
  · exact (closed_append hcolon (by decide) rest).ends

theorem closed_tag {n : α} {rest : List Char}
    (h : K.tag n ≠ "" ∨ Closed rest) :
    Closed ((K.tag n).toList ++ rest) := by
  rcases K.tag_eq n with hempty | hcolon
  · rw [hempty]
    exact h.resolve_left (not_not.mpr hempty)
  · exact closed_append hcolon (by decide) rest

/-- The text of a tree, as characters. -/
def text (t : Term α) : List Char :=
  (t.renderWith K.tag).toList

/-- **A reader reads a tree back**, where the tree has to end. -/
def ReadsBack (part : Reader (Term α)) (t : Term α) : Prop :=
  ∀ {rest}, Closed rest → part (K.text t ++ rest) = some (t, rest)

/-! ## The reader -/

/-- Read the note of a node. -/
def noted (node : α → Term α) : Reader (Term α) := fun s =>
  (K.read s).map (fun (n, rest) => (node n, rest))

/-- Read an operator application, after the parenthesis that opens it. -/
def operation (part : Reader (Term α)) : Reader (Term α) := fun s => do
  let (left, s) ← part s
  let s ← expect " " s
  let (op, s) ← operator s
  let (right, s) ← part s
  let s ← expect ")" s
  K.noted (.binary · op left right) s

/-- Read a block, after the brace that opens it. What cannot be read as a
script is a binding. -/
def braced (part : Reader (Term α)) : Reader (Term α) := fun s =>
  match part s with
  | some (body, s) => do
    let s ← expect " \x7d" s
    K.noted (.block · body) s
  | none => do
    let s ← expect "let " s
    let (name, s) ← name s
    let s ← expect " = " s
    let (value, s) ← part s
    let s ← expect "; " s
    let (body, s) ← part s
    let s ← expect " \x7d" s
    K.noted (.letIn · name value body) s

/-- Read a conditional, after its first word. -/
def conditional (part : Reader (Term α)) : Reader (Term α) := fun s => do
  let s ← expect " (" s
  let (cond, s) ← part s
  let s ← expect ") then " s
  let (ifTrue, s) ← part s
  let s ← expect " else " s
  let (ifFalse, s) ← part s
  K.noted (.ifElse · cond ifTrue ifFalse) s

/-- Read what starts with a word: a conditional, a call or a reference. -/
def worded (part : Reader (Term α)) : Reader (Term α) := fun s =>
  let (w, s) := word s
  if w = "if".toList then K.conditional part s
  else if isPlainName (String.ofList w) then
    match expect "(" s with
    | some s => do
      let (args, s) ← listed part ")" s
      K.noted (.call · (String.ofList w) args) s
    | none => K.noted (.ref · (String.ofList w)) s
  else none

/-- **Read a script that is no field access**, given a reader for its
parts. -/
def primary (part : Reader (Term α)) : Reader (Term α) := fun s =>
  match literal s with
  | some (value, s) => K.noted (.lit · value) s
  | none =>
    match expect "(" s, expect "\x7b " s with
    | some s, _ => K.operation part s
    | none, some s => K.braced part s
    | none, none => K.worded part s

/-- Read the name of a field with the note of the access to it. -/
def field : Reader (String × α) := fun s => do
  let s ← expect "." s
  let (field, s) ← name s
  let (n, s) ← K.read s
  return ((field, n), s)

/-- **Read a script** that is at most so many levels high. -/
def term : Nat → Reader (Term α)
  | 0, _ => none
  | height + 1, s => do
    let (base, s) ← K.primary (term height) s
    let (fields, s) := many K.field s
    return (fields.foldl Term.read base, s)

/-! ## What is read of a node -/

section Nodes

variable {K} {part : Reader (Term α)} {n : α} {rest : List Char}

theorem noted_append {node : α → Term α} (hn : K.Valid n)
    (hrest : Ends rest) :
    K.noted node ((K.tag n).toList ++ rest) = some (node n, rest) := by
  rw [noted, K.read_tag hn hrest]
  rfl

theorem operation_append {op : Operator} {left right : Term α}
    (hleft : K.ReadsBack part left) (hright : K.ReadsBack part right)
    (hn : K.Valid n) (hrest : Ends rest) :
    K.operation part (K.text left ++ (" ".toList ++ (op.symbol.toList
        ++ (" ".toList ++ (K.text right ++ (")".toList
          ++ ((K.tag n).toList ++ rest)))))))
      = some (.binary n op left right, rest) := by
  have hspace := closed_append (w := " ") rfl (by decide)
  have hparen := closed_append (w := ")") rfl (by decide)
  have hop : ∀ s, operator (op.symbol.toList ++ (" ".toList ++ s))
      = some (op, s) := operator_append op
  simp only [operation, hleft (hspace _), hright (hparen _), hop,
    expect_append, noted_append hn hrest, Option.bind_eq_bind,
    Option.bind_some]

theorem braced_append_body {body : Term α} (hbody : K.ReadsBack part body)
    (hn : K.Valid n) (hrest : Ends rest) :
    K.braced part (K.text body ++ (" \x7d".toList
        ++ ((K.tag n).toList ++ rest)))
      = some (.block n body, rest) := by
  have hbrace := closed_append (w := " \x7d") rfl (by decide)
  simp only [braced, hbody (hbrace _), expect_append, noted_append hn hrest,
    Option.bind_eq_bind, Option.bind_some]

theorem braced_append_let {name : String} {value body : Term α}
    (hlet : ∀ s, part ("let ".toList ++ s) = none)
    (hname : isPlainName name = true) (hvalue : K.ReadsBack part value)
    (hbody : K.ReadsBack part body) (hn : K.Valid n) (hrest : Ends rest) :
    K.braced part ("let ".toList ++ (name.toList ++ (" = ".toList
        ++ (K.text value ++ ("; ".toList ++ (K.text body
          ++ (" \x7d".toList ++ ((K.tag n).toList ++ rest))))))))
      = some (.letIn n name value body, rest) := by
  have hequals := closed_append (w := " = ") rfl (by decide)
  have hsemicolon := closed_append (w := "; ") rfl (by decide)
  have hbrace := closed_append (w := " \x7d") rfl (by decide)
  simp only [braced, hlet, expect_append,
    name_append hname (hequals _).ends.wordEnds, hvalue (hsemicolon _),
    hbody (hbrace _), noted_append hn hrest, Option.bind_eq_bind,
    Option.bind_some]

theorem conditional_append {cond ifTrue ifFalse : Term α}
    (hcond : K.ReadsBack part cond) (hifTrue : K.ReadsBack part ifTrue)
    (hifFalse : K.ReadsBack part ifFalse) (hn : K.Valid n)
    (hrest : Ends rest) (hclosed : K.tag n ≠ "" ∨ Closed rest) :
    K.conditional part (" (".toList ++ (K.text cond ++ (") then ".toList
        ++ (K.text ifTrue ++ (" else ".toList ++ (K.text ifFalse
          ++ ((K.tag n).toList ++ rest)))))))
      = some (.ifElse n cond ifTrue ifFalse, rest) := by
  have hthen := closed_append (w := ") then ") rfl (by decide)
  have helse := closed_append (w := " else ") rfl (by decide)
  simp only [conditional, expect_append, hcond (hthen _),
    hifTrue (helse _), hifFalse (K.closed_tag hclosed),
    noted_append hn hrest, Option.bind_eq_bind, Option.bind_some]

theorem arguments_append {args : List (Term α)}
    (hparen : ∀ s, part (")".toList ++ s) = none)
    (hargs : ∀ arg ∈ args, K.ReadsBack part arg) :
    listed part ")" ((", ".intercalate
        (args.map (Term.renderWith K.tag))).toList ++ (")".toList ++ rest))
      = some (args, rest) :=
  listed_append Closed rfl (by decide) (closed_append rfl (by decide))
    (closed_append rfl (by decide) rest) (hparen rest)
    (fun arg harg _ hs => hargs arg harg hs)

/-! ## What starts with a word -/

theorem worded_append_if {cond ifTrue ifFalse : Term α}
    (hcond : K.ReadsBack part cond) (hifTrue : K.ReadsBack part ifTrue)
    (hifFalse : K.ReadsBack part ifFalse) (hn : K.Valid n)
    (hrest : Ends rest) (hclosed : K.tag n ≠ "" ∨ Closed rest) :
    K.worded part ("if".toList ++ (" (".toList ++ (K.text cond
        ++ (") then ".toList ++ (K.text ifTrue ++ (" else ".toList
          ++ (K.text ifFalse ++ ((K.tag n).toList ++ rest))))))))
      = some (.ifElse n cond ifTrue ifFalse, rest) := by
  have hspace := closed_append (w := " (") rfl (by decide)
  rw [worded, word_append (by decide) (hspace _).ends.wordEnds]
  exact conditional_append hcond hifTrue hifFalse hn hrest hclosed

theorem ne_if_of_isPlainName {name : String}
    (hname : isPlainName name = true) : name.toList ≠ "if".toList := by
  intro heq
  rw [String.toList_injective heq] at hname
  cases hname

theorem worded_append_call {name : String} {args : List (Term α)}
    (hparen : ∀ s, part (")".toList ++ s) = none)
    (hname : isPlainName name = true)
    (hargs : ∀ arg ∈ args, K.ReadsBack part arg) (hn : K.Valid n)
    (hrest : Ends rest) :
    K.worded part (name.toList ++ ("(".toList
        ++ ((", ".intercalate (args.map (Term.renderWith K.tag))).toList
          ++ (")".toList ++ ((K.tag n).toList ++ rest)))))
      = some (.call n name args, rest) := by
  have hopen := wordEnds_append (w := "(") rfl rfl
  rw [worded, word_append (of_isPlainName hname).2.1 (hopen _)]
  simp only [ne_if_of_isPlainName hname, if_false, String.ofList_toList,
    hname, if_true, expect_append, arguments_append hparen hargs,
    noted_append hn hrest, Option.bind_eq_bind, Option.bind_some]

theorem worded_append_ref {name : String}
    (hname : isPlainName name = true) (hn : K.Valid n)
    (hrest : Ends rest) :
    K.worded part (name.toList ++ ((K.tag n).toList ++ rest))
      = some (.ref n name, rest) := by
  have hends := K.ends_tag n hrest
  have hopen : expect "(" ((K.tag n).toList ++ rest) = none := by
    refine expect_eq_none (c := '(') rfl (fun hhead => ?_)
    exact absurd (hends '(' hhead) (by decide)
  rw [worded, word_append (of_isPlainName hname).2.1 hends.wordEnds]
  simp only [ne_if_of_isPlainName hname, if_false, String.ofList_toList,
    hname, if_true, hopen, noted_append hn hrest]

/-- What starts with a word that is no constant is read as such. -/
theorem primary_word {w s : List Char} (hne : w ≠ [])
    (hw : w.all isWordChar = true) (hconst : Literal.ofWord? w = none)
    (hs : WordEnds s) : K.primary part (w ++ s) = K.worded part (w ++ s) := by
  obtain ⟨c, cs, rfl⟩ := List.exists_cons_of_ne_nil hne
  have hmark : ∀ (mark : String) {d : Char},
      mark.toList.head? = some d → isWordChar d = false →
      expect mark (c :: cs ++ s) = none := by
    intro mark d hd hmark
    refine expect_eq_none hd (fun hhead => ?_)
    cases hhead
    rw [List.all_eq_true.mp hw c List.mem_cons_self] at hmark
    cases hmark
  have hliteral : literal (c :: cs ++ s) = none := by
    rw [literal_of_word hne hw hs, hconst]
    rfl
  rw [primary, hliteral, hmark "(" rfl rfl,
    hmark "\x7b " rfl rfl]

theorem primary_paren (s : List Char) :
    K.primary part ("(".toList ++ s) = K.operation part s := by
  have hliteral : literal ("(".toList ++ s) = none :=
    literal_of_mark (c := '(') rfl (by decide) (by decide) s
  rw [primary, hliteral, expect_append]

theorem primary_brace (s : List Char) :
    K.primary part ("\x7b ".toList ++ s) = K.braced part s := by
  have hliteral : literal ("\x7b ".toList ++ s) = none :=
    literal_of_mark (c := '\x7b') rfl (by decide) (by decide) (' ' :: s)
  have hopen : expect "(" ("\x7b ".toList ++ s) = none :=
    expect_eq_none (c := '(') rfl (by simp)
  rw [primary, hliteral, hopen, expect_append]

theorem primary_name {name : String} {s : List Char}
    (hname : isPlainName name = true) (hs : WordEnds s) :
    K.primary part (name.toList ++ s) = K.worded part (name.toList ++ s) := by
  obtain ⟨⟨c, cs, hcons, -⟩, hword, -⟩ := of_isPlainName hname
  exact primary_word (hcons ▸ List.cons_ne_nil c cs) hword
    (Literal.ofWord?_of_isPlainName hname) hs

/-! ## The text of a node, from the left -/

theorem text_call (function : String) (args : List (Term α)) :
    K.text (.call n function args) ++ rest
      = function.toList ++ ("(".toList
        ++ ((", ".intercalate (args.map (Term.renderWith K.tag))).toList
          ++ (")".toList ++ ((K.tag n).toList ++ rest)))) := by
  simp only [text, Term.renderWith, Term.renderEach_eq_map,
    String.toList_append, List.append_assoc]

theorem text_binary (op : Operator) (left right : Term α) :
    K.text (.binary n op left right) ++ rest
      = "(".toList ++ (K.text left ++ (" ".toList ++ (op.symbol.toList
        ++ (" ".toList ++ (K.text right ++ (")".toList
          ++ ((K.tag n).toList ++ rest))))))) := by
  simp only [text, Term.renderWith, String.toList_append, List.append_assoc]

theorem text_block (body : Term α) :
    K.text (.block n body) ++ rest
      = "\x7b ".toList ++ (K.text body ++ (" \x7d".toList
        ++ ((K.tag n).toList ++ rest))) := by
  simp only [text, Term.renderWith, String.toList_append, List.append_assoc]

theorem text_letIn (name : String) (value body : Term α) :
    K.text (.letIn n name value body) ++ rest
      = "\x7b ".toList ++ ("let ".toList ++ (name.toList ++ (" = ".toList
        ++ (K.text value ++ ("; ".toList ++ (K.text body
          ++ (" \x7d".toList ++ ((K.tag n).toList ++ rest)))))))) := by
  have hopen : "\x7b let " = "\x7b " ++ "let " := rfl
  simp only [text, Term.renderWith, hopen, String.toList_append,
    List.append_assoc]

theorem text_ifElse (cond ifTrue ifFalse : Term α) :
    K.text (.ifElse n cond ifTrue ifFalse) ++ rest
      = "if".toList ++ (" (".toList ++ (K.text cond
        ++ (") then ".toList ++ (K.text ifTrue ++ (" else ".toList
          ++ (K.text ifFalse ++ ((K.tag n).toList ++ rest))))))) := by
  have hopen : "if (" = "if" ++ " (" := rfl
  simp only [text, Term.renderWith, hopen, String.toList_append,
    List.append_assoc]

/-- **A node that is no field access is read back** where its parts
are. -/
theorem primary_append {t : Term α}
    (hlet : ∀ s, part ("let ".toList ++ s) = none)
    (hparen : ∀ s, part (")".toList ++ s) = none)
    (hparts : ∀ u ∈ t.parts, K.ReadsBack part u)
    (hname : ∀ name ∈ t.ownName?, isPlainName name = true)
    (hn : K.Valid t.note) (hbase : ∀ n u f, t ≠ .access n u f)
    (hrest : Ends rest)
    (hclosed : ∀ n c a b, t = .ifElse n c a b →
      K.tag n ≠ "" ∨ Closed rest) :
    K.primary part (K.text t ++ rest) = some (t, rest) := by
  have hends : ∀ n, WordEnds ((K.tag n).toList ++ rest) :=
    fun n => (K.ends_tag n hrest).wordEnds
  cases t with
  | lit n value =>
    rw [text, Term.renderWith, String.toList_append, List.append_assoc,
      primary, literal_render value (hends n)]
    exact noted_append hn hrest
  | ref n name =>
    rw [text, Term.renderWith, String.toList_append, List.append_assoc,
      primary_name (hname name rfl) (hends n)]
    exact worded_append_ref (hname name rfl) hn hrest
  | access n target field => exact absurd rfl (hbase n target field)
  | call n function args =>
    rw [text_call, primary_name (hname function rfl)
      (wordEnds_append rfl rfl _)]
    exact worded_append_call hparen (hname function rfl) hparts hn hrest
  | binary n op left right =>
    rw [text_binary, primary_paren]
    exact operation_append (hparts left (.head _))
      (hparts right (.tail _ (.head _))) hn hrest
  | block n body =>
    rw [text_block, primary_brace]
    exact braced_append_body (hparts body (.head _)) hn hrest
  | letIn n name value body =>
    rw [text_letIn, primary_brace]
    exact braced_append_let hlet (hname name rfl) (hparts value (.head _))
      (hparts body (.tail _ (.head _))) hn hrest
  | ifElse n cond ifTrue ifFalse =>
    rw [text_ifElse, primary_word (by decide) (by decide) rfl
      (wordEnds_append rfl rfl _)]
    exact worded_append_if (hparts cond (.head _))
      (hparts ifTrue (.tail _ (.head _)))
      (hparts ifFalse (.tail _ (.tail _ (.head _)))) hn hrest
      (hclosed n cond ifTrue ifFalse rfl)

end Nodes

/-! ## No script starts so -/

theorem term_let (height : Nat) (s : List Char) :
    K.term height ("let ".toList ++ s) = none := by
  cases height with
  | zero => rfl
  | succ height =>
    have hspace := closed_append (w := " ") rfl (by decide) s
    show K.term (height + 1) ("let".toList ++ (" ".toList ++ s)) = none
    rw [term, primary_word (by decide) (by decide) rfl hspace.ends.wordEnds,
      worded, word_append (by decide) hspace.ends.wordEnds]
    rfl

theorem term_paren (height : Nat) (s : List Char) :
    K.term height (")".toList ++ s) = none := by
  cases height with
  | zero => rfl
  | succ height =>
    have hliteral : literal (")".toList ++ s) = none :=
      literal_of_mark (c := ')') rfl (by decide) (by decide) s
    have hopen : expect "(" (")".toList ++ s) = none :=
      expect_eq_none (c := '(') rfl (by simp)
    have hbrace : expect "\x7b " (")".toList ++ s) = none :=
      expect_eq_none (c := '\x7b') rfl (by simp)
    rw [term, primary, hliteral, hopen, hbrace]
    rfl

/-! ## Legible scripts -/

/-- **A script that can be read back**: all names are plain, all notes can
be read back, and after a conditional that a field is read from there is
a tag. -/
structure Legible (t : Term α) : Prop where
  /-- The names are plain. -/
  names : t.NamesPlain
  /-- The notes can be read back. -/
  notes : ∀ node ∈ t.nodes, K.Valid node.note
  /-- The text shows where a conditional ends that a field is read
  from. -/
  targets : ∀ {n m c a b f},
    .access n (.ifElse m c a b) f ∈ t.nodes → K.tag m ≠ ""

variable {K} {t u : Term α}

theorem Legible.mono (ht : K.Legible t) (h : u.nodes ⊆ t.nodes) :
    K.Legible u where
  names node hnode := ht.names node (h hnode)
  notes node hnode := ht.notes node (h hnode)
  targets hnode := ht.targets (h hnode)

variable (K) in
/-- The text of a field and of the note of the access to it. -/
def fieldText (field : String × α) : List Char :=
  ".".toList ++ (field.1.toList ++ (K.tag field.2).toList)

theorem ends_fieldText (field : String × α) (s : List Char) :
    Ends (K.fieldText field ++ s) :=
  fun _ hc => .inl (Option.some.inj hc).symm

/-- A script is written from its base, field by field. -/
theorem text_eq_append (t : Term α) :
    K.text t = K.text t.base ++ t.fields.flatMap K.fieldText := by
  fun_induction Term.fields t with
  | case1 n target f ih =>
    rw [Term.base, List.flatMap_append, ← List.append_assoc, ← ih]
    simp only [text, Term.renderWith, fieldText, String.toList_append,
      List.append_assoc, List.flatMap_cons, List.flatMap_nil,
      List.append_nil]
  | case2 t h =>
    unfold Term.base
    split
    · next n target f => exact absurd rfl (h n target f)
    · exact (List.append_nil _).symm

theorem field_append {f : String} {n : α} {rest : List Char}
    (hname : isPlainName f = true) (hn : K.Valid n) (hrest : Ends rest) :
    K.field (K.fieldText (f, n) ++ rest) = some ((f, n), rest) := by
  have hends := K.ends_tag n hrest
  simp only [fieldText, field, List.append_assoc, expect_append,
    name_append hname hends.wordEnds, K.read_tag hn hrest,
    Option.bind_eq_bind, Option.bind_some, Option.pure_def]

theorem many_field_append {rest : List Char} (ht : K.Legible t)
    (hrest : Closed rest) :
    many K.field (t.fields.flatMap K.fieldText ++ rest)
      = (t.fields, rest) := by
  refine many_flatMap Ends ?_ (fun field _ => ends_fieldText field) ?_
    hrest.ends ?_
  · intro field _
    exact List.append_ne_nil_of_left_ne_nil (by decide) _
  · rintro ⟨f, n⟩ hmem s hs
    obtain ⟨u, hu⟩ := Term.access_of_mem_fields hmem
    exact field_append (ht.names _ hu f rfl) (ht.notes _ hu) hs
  · have hdot : expect "." rest = none := by
      refine expect_eq_none (c := '.') rfl (fun hhead => ?_)
      exact absurd (hrest '.' hhead) (by decide)
    rw [field, hdot]
    rfl

/-- **A legible script is read back**, where it has to end. -/
theorem term_append {height : Nat} (ht : K.Legible t)
    (hheight : t.height ≤ height) : K.ReadsBack (K.term height) t := by
  -- The base of the script is no field access, so its parts are lower.
  induction height generalizing t with
  | zero => exact absurd t.height_pos (Nat.not_lt.mpr hheight)
  | succ height ih =>
    intro rest hrest
    have hbase : K.Legible t.base := ht.mono t.nodes_base_subset
    have hlow := (Term.height_le_succ_iff t.base).mp
      (Nat.le_trans t.base_height_le hheight)
    have hparts : ∀ u ∈ t.base.parts, K.ReadsBack (K.term height) u :=
      fun u hu => ih (hbase.mono (Term.nodes_subset_of_mem_parts hu))
        (hlow u hu)
    have hends : Ends (t.fields.flatMap K.fieldText ++ rest) :=
      stops_flatMap_append (fun field _ => ends_fieldText field) hrest.ends
    have hclosed : ∀ n c a b, t.base = .ifElse n c a b →
        K.tag n ≠ "" ∨ Closed (t.fields.flatMap K.fieldText ++ rest) := by
      intro n c a b heq
      by_cases hnil : t.fields = []
      · rw [hnil]
        exact .inr hrest
      · obtain ⟨m, f, hmem⟩ := Term.access_base_of_fields_ne_nil hnil
        exact .inl (ht.targets (heq ▸ hmem))
    have hprimary := primary_append (K.term_let height) (K.term_paren height)
      hparts (ht.names _ t.base_mem_nodes) (ht.notes _ t.base_mem_nodes)
      t.base_ne_access hends hclosed
    rw [text_eq_append, List.append_assoc, term, hprimary]
    simp only [many_field_append ht hrest, Term.foldl_read_fields,
      Option.bind_eq_bind, Option.bind_some, Option.pure_def]

/-- **Legible scripts of one text are one script.** -/
theorem eq_of_renderWith_eq (ht : K.Legible t) (hu : K.Legible u)
    (h : t.renderWith K.tag = u.renderWith K.tag) : t = u := by
  have hread : ∀ {v : Term α}, K.Legible v →
      v.height ≤ max t.height u.height →
      K.term (max t.height u.height) (v.renderWith K.tag).toList
        = some (v, []) := by
    intro v hv hheight
    have := term_append hv hheight closed_nil
    rwa [List.append_nil] at this
  have hboth : some (t, []) = some (u, []) :=
    calc some (t, [])
        = K.term _ (t.renderWith K.tag).toList :=
          (hread ht (Nat.le_max_left _ _)).symm
      _ = K.term _ (u.renderWith K.tag).toList := by rw [h]
      _ = some (u, []) := hread hu (Nat.le_max_right _ _)
  exact (Prod.mk.inj (Option.some.inj hboth)).1

end Tagging

end PredicateScript
