import PredicateScript.Rejection

/-!
# Reports

A rejection as a terminal shows it: a heading that fills the line, the
reason, and the names that may have been meant. A report is plain or
coloured; a coloured one is the plain one with an escape sequence before
and after each coloured piece (`Palette.paint`), and the two differ in
nothing else. The width of the heading is that of its text alone.
-/

namespace PredicateScript

/-- Whether a report carries colours. -/
inductive Palette where
  /-- The text alone. -/
  | plain
  /-- With ANSI escape sequences. -/
  | ansi
  deriving DecidableEq, Repr, Inhabited

/-- What a coloured piece of a report is. -/
inductive Tone where
  /-- The heading. -/
  | header
  /-- The reason. -/
  | message
  /-- An offered name. -/
  | name
  deriving DecidableEq, Repr, Inhabited

/-- The escape sequence that turns the colour on. -/
def Tone.escape : Tone → String
  | header => "\x1b[36m"
  | message => "\x1b[31m"
  | name => "\x1b[1m"

namespace Palette

/-- The escape sequence that turns any colour off. -/
def reset : String := "\x1b[0m"

/-- The palette with or without colours. -/
def ofBool : Bool → Palette
  | true => ansi
  | false => plain

/-- **A piece of text in its colour.** -/
def paint (palette : Palette) (tone : Tone) (text : String) : String :=
  match palette with
  | plain => text
  | ansi => tone.escape ++ text ++ reset

end Palette

namespace Report

/-- The width that a heading is filled up to, in bytes of UTF-8. -/
def headerWidth : Nat := 60

/-- **The heading**: the kind of the rejection, filled up with dashes. A
long kind is not cut. -/
def header (kind : String) (palette : Palette) : String :=
  let title := "-- " ++ kind ++ " "
  let dashes := List.replicate (headerWidth - title.utf8ByteSize) '-'
  palette.paint .header (title ++ String.ofList dashes)

/-- **The offered names**; nothing where there are none. -/
def hint (suggestions : List String) (palette : Palette) : String :=
  match suggestions.map (palette.paint .name) with
  | [] => ""
  | [name] => "\n\nDid you mean " ++ name ++ "?"
  | names => "\n\nDid you mean one of: " ++ ", ".intercalate names ++ "?"

end Report

/-- **The report of a rejection.** -/
def Rejection.report (r : Rejection) (palette : Palette) : String :=
  Report.header r.kind palette ++ "\n\n"
    ++ palette.paint .message r.message
    ++ Report.hint r.suggestions palette ++ "\n"

end PredicateScript
