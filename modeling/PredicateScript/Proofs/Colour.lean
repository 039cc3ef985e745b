import PredicateScript.Proofs.Ansi
import PredicateScript.Rejection.Report

/-!
# Colours change nothing but colour

A terminal that knows no colours is given a coloured report without its
escape sequences. What it shows has to be the plain report, and a terminal
that does know them should not be left in a colour. `ColourOnly` says both
of a coloured text and a plain one.

The two are gone through piece by piece. `Painted` relates them by the
tones that pieces of the one are painted in, and it is kept when texts are
joined (`Painted.append`), since it speaks of how a text is read whatever
comes after. So a heading is painted as a whole, with what fills it up,
the names on offer are painted one by one before they are joined, and a
report is what these make together with a painted message.

The names in a message come from a script or a context and the rest is
fixed, so all that is asked is that those are clean (`Rejection.texts`).
The letter of a placeholder may even be the character that sequences start
with, for a blank is written after it.
-/

namespace PredicateScript

/-! ## The texts of a rejection -/

open Ansi

/-- The name in a type, if there is one. -/
def Ty.texts (ty : Ty) : List String := ty.name?.toList

/-- **The texts that a rejection did not choose**: the names of a script
and of a context, those in types and those on offer included, and the
message of a fault. -/
def Rejection.texts : Rejection → List String
  | undefinedType name offer => name :: offer
  | undefinedField typeName field offer => typeName :: field :: offer
  | fieldOfPrimitive ty field => field :: ty.texts
  | undefinedFunction name offer => name :: offer
  | arityMismatch name _ _ => [name]
  | argumentMismatch function _ expected found =>
    function :: (expected.texts ++ found.texts)
  | conflictingPlaceholder function _ bound found =>
    function :: (bound.texts ++ found.texts)
  | unresolvedPlaceholder function _ => [function]
  | operandMismatch _ _ expected found => expected.texts ++ found.texts
  | noCommonType _ left right => left.texts ++ right.texts
  | duplicateBinding name _ => [name]
  | undefinedReference name offer => name :: offer
  | depthLimitExceeded _ => []
  | internal message => [message]

theorem Ty.clean_render_iff {ty : Ty} :
    Clean ty.render ↔ ∀ text ∈ ty.texts, Clean text := by
  cases ty with
  | named name =>
    have hopen : Clean "TYPEREF(" := clean_ofList (by decide)
    have hclose : Clean ")" := clean_ofList (by decide)
    rw [render, clean_append, clean_append, texts]
    simp [hopen, hclose, name?]
  | _ =>
    simp only [texts, name?, Option.toList_none, List.not_mem_nil,
      false_implies, implies_true, iff_true]
    exact clean_ofList (by decide)

theorem Side.clean_ordinal (side : Side) : Clean side.ordinal := by
  cases side <;> exact clean_ofList (by decide)

theorem Site.clean_describe (site : Site) : Clean site.describe := by
  cases site <;> exact clean_ofList (by decide)

theorem NameUse.clean_describe (use : NameUse) : Clean use.describe := by
  cases use <;> exact clean_ofList (by decide)

theorem Operator.clean_name (op : Operator) : Clean op.name := by
  cases op <;> exact clean_ofList (by decide)

/-- Between texts that have no sequence, a placeholder makes none, for it
is written before a blank. -/
theorem Placeholder.verbatim_between (p : Placeholder) {a b : String}
    (ha : Clean a) (hb : Clean b) (hblank : b.toList.head? = some ' ') :
    Verbatim (a ++ p.render ++ b) := by
  obtain ⟨s, hs⟩ := List.head?_eq_some_iff.mp hblank
  have hrest : esc ∉ s := fun hmem =>
    hb (by rw [hs]; exact List.mem_cons_of_mem _ hmem)
  have hmark : Clean "'" := clean_ofList (by decide)
  have htext : (a ++ p.render ++ b).toList
      = a.toList ++ "'".toList ++ [p.letter, ' '] ++ s := by
    simp [render, hs]
  unfold Verbatim
  rw [htext, List.map_append, List.map_append, List.map_append]
  exact (((reads_of_notMem ha).append (reads_of_notMem hmark)).append
    (reads_before_blank p.letter)).append (reads_of_notMem hrest)

/-- **A message is shown as it stands** if the names in it are. -/
theorem Rejection.verbatim_message {r : Rejection}
    (h : ∀ text ∈ r.texts, Clean text) : Verbatim r.message := by
  cases r with
  | conflictingPlaceholder function param bound found =>
    unfold texts at h
    simp only [List.forall_mem_cons, List.forall_mem_append,
      ← Ty.clean_render_iff] at h
    obtain ⟨hfunction, hbound, hfound⟩ := h
    have hcolon : Clean "`: " := clean_ofList (by decide)
    have hand : Clean " and " := clean_ofList (by decide)
    have hparam := param.verbatim_between
      (clean_ofList (by decide) : Clean "conflicting type for parameter ")
      (clean_ofList (by decide) : Clean " of `") rfl
    exact ((((hparam.append hfunction.verbatim).append
      hcolon.verbatim).append hbound.verbatim).append hand.verbatim).append
        hfound.verbatim
  | unresolvedPlaceholder function param =>
    have hfunction : Clean function := h function List.mem_cons_self
    have hclose : Clean "`" := clean_ofList (by decide)
    exact ((param.verbatim_between (clean_ofList (by decide))
      (clean_ofList (by decide)) rfl).append
        hfunction.verbatim).append hclose.verbatim
  | _ =>
    -- what is left is joined of fixed texts, numbers and texts of these
    refine Clean.verbatim ?_
    unfold texts at h
    unfold message
    simp only [List.forall_mem_cons, List.forall_mem_append,
      List.mem_singleton, forall_eq, ← Ty.clean_render_iff] at h
    simp only [clean_append, clean_toString, Side.clean_ordinal,
      Site.clean_describe, NameUse.clean_describe, Operator.clean_name, h,
      and_true]
    and_intros
    all_goals exact clean_ofList (by decide)

/-! ## Painted texts -/

/-- The digits of the escape sequence of a tone. -/
def Tone.digits : Tone → List Char
  | header => ['3', '6']
  | message => ['3', '1']
  | name => ['1']

theorem Tone.isCode_digits (tone : Tone) : IsCode tone.digits := by
  cases tone <;> decide

theorem Tone.toList_escape (tone : Tone) :
    tone.escape.toList = sequence tone.digits := by
  cases tone <;> decide

/-- The digits of the sequences around pieces of the given tones. -/
def painting (tones : List Tone) : List (List Char) :=
  paired (tones.map Tone.digits)

/-- **A text is another one with pieces painted** in the given tones, and
is read so whatever comes after. -/
def Painted (coloured plain : String) (tones : List Tone) : Prop :=
  ∃ ts, Reads coloured.toList ts
    ∧ ts.filterMap Token.char? = plain.toList
    ∧ ts.filterMap Token.digits? = painting tones

theorem Painted.append {a b a' b' : String} {tones tones' : List Tone}
    (h : Painted a a' tones) (h' : Painted b b' tones') :
    Painted (a ++ b) (a' ++ b') (tones ++ tones') := by
  obtain ⟨ts, hts, hshown, hcodes⟩ := h
  obtain ⟨us, hus, hshown', hcodes'⟩ := h'
  refine ⟨ts ++ us, ?_, ?_, ?_⟩
  · rw [String.toList_append]
    exact hts.append hus
  · rw [List.filterMap_append, hshown, hshown', String.toList_append]
  · rw [List.filterMap_append, hcodes, hcodes', painting, painting,
      painting, List.map_append]
    exact List.flatMap_append.symm

theorem filterMap_char?_map (s : List Char) :
    (s.map Token.char).filterMap Token.char? = s := by
  simp [List.filterMap_map, Function.comp_def, Token.char?]

theorem filterMap_digits?_map (s : List Char) :
    (s.map Token.char).filterMap Token.digits? = [] := by
  simp [List.filterMap_map, Function.comp_def, Token.digits?]

/-- A text that is shown as it stands is painted in no tone. -/
theorem Ansi.Verbatim.painted {text : String} (h : Verbatim text) :
    Painted text text [] :=
  ⟨_, h, filterMap_char?_map _, filterMap_digits?_map _⟩

/-- **A piece is painted in its tone.** -/
theorem painted_paint (tone : Tone) {text : String} (h : Verbatim text) :
    Painted (Palette.ansi.paint tone text) (Palette.plain.paint tone text)
      [tone] := by
  have hoff : IsCode off := by decide
  have htext : (Palette.ansi.paint tone text).toList
      = sequence tone.digits ++ text.toList ++ sequence off := by
    show (tone.escape ++ text ++ Palette.reset).toList = _
    rw [String.toList_append, String.toList_append, tone.toList_escape]
    rfl
  refine ⟨[.escape tone.digits] ++ text.toList.map .char ++ [.escape off],
    ?_, ?_, ?_⟩
  · rw [htext]
    exact ((reads_sequence tone.isCode_digits).append h).append
      (reads_sequence hoff)
  · rw [List.filterMap_append, List.filterMap_append, filterMap_char?_map]
    show [] ++ text.toList ++ [] = text.toList
    simp
  · rw [List.filterMap_append, List.filterMap_append, filterMap_digits?_map]
    rfl

/-- A list of painted pieces is painted, with marks between them. -/
theorem painted_intercalate (tone : Tone) {mark : String}
    (hmark : Verbatim mark) {texts : List String}
    (h : ∀ text ∈ texts, Verbatim text) :
    Painted (mark.intercalate (texts.map (Palette.ansi.paint tone)))
      (mark.intercalate (texts.map (Palette.plain.paint tone)))
      (texts.map (fun _ => tone)) := by
  induction texts with
  | nil => exact (verbatim_ofList (by decide)).painted
  | cons text texts ih =>
    obtain ⟨htext, htexts⟩ := List.forall_mem_cons.mp h
    cases texts with
    | nil =>
      simp only [List.map_cons, List.map_nil, String.intercalate_singleton]
      exact painted_paint tone htext
    | cons next texts =>
      have hfirst := (painted_paint tone htext).append hmark.painted
      have hrest := ih htexts
      simp only [List.map_cons, String.intercalate_cons_cons] at hrest ⊢
      exact hfirst.append hrest

/-- **A coloured text and the plain one differ in colour only**: without
its escape sequences the one is the other, its sequences are those of the
given tones with the colour turned off after each, and so every colour is
turned off before the next one is turned on. -/
structure ColourOnly (coloured plain : String) (tones : List Tone) :
    Prop where
  /-- The text without its sequences. -/
  strip_eq : strip coloured = plain
  /-- The sequences. -/
  codes_eq : codes coloured = painting tones
  /-- No colour is left on. -/
  closes : ClosesInTurn coloured

theorem Painted.colourOnly {coloured plain : String} {tones : List Tone}
    (h : Painted coloured plain tones) :
    ColourOnly coloured plain tones := by
  obtain ⟨ts, hts, hshown, hcodes⟩ := h
  have htokens : tokens coloured.toList = ts := by
    have hread := hts []
    rw [List.append_nil] at hread
    rw [hread]
    exact List.append_nil ts
  have hpainting : codes coloured = painting tones := by
    rw [codes, htokens, hcodes]
  refine ⟨?_, hpainting, closesInTurn_of_codes hpainting⟩
  rw [strip, htokens, hshown, String.ofList_toList]

/-! ## Reports -/

section Report

variable {names : List String} {kind : String}

theorem painted_header (h : Clean kind) :
    Painted (Report.header kind .ansi) (Report.header kind .plain)
      [.header] := by
  refine painted_paint .header (Clean.verbatim ?_)
  have htitle : Clean ("-- " ++ kind ++ " ") := by
    simp only [clean_append, h, and_true]
    exact ⟨clean_ofList (by decide), clean_ofList (by decide)⟩
  have hdashes : esc ∉ List.replicate
      (Report.headerWidth - ("-- " ++ kind ++ " ").utf8ByteSize) '-' :=
    fun hmem => absurd (List.eq_of_mem_replicate hmem) (by decide)
  exact clean_append.mpr ⟨htitle, clean_ofList hdashes⟩

theorem painted_hint (h : ∀ name ∈ names, Clean name) :
    Painted (Report.hint names .ansi) (Report.hint names .plain)
      (names.map (fun _ => .name)) := by
  have hnames : ∀ name ∈ names, Verbatim name := fun name hname =>
    (h name hname).verbatim
  have hlist := painted_intercalate .name
    (verbatim_ofList (by decide) : Verbatim ", ") hnames
  have hend : Verbatim "?" := verbatim_ofList (by decide)
  match names with
  | [] => exact (verbatim_ofList (by decide)).painted
  | [name] =>
    have hopen : Verbatim "\n\nDid you mean " := verbatim_ofList (by decide)
    simp only [List.map_cons, List.map_nil, String.intercalate_singleton]
      at hlist
    exact (hopen.painted.append hlist).append hend.painted
  | name :: next :: names =>
    have hopen : Verbatim "\n\nDid you mean one of: " :=
      verbatim_ofList (by decide)
    have hall := (hopen.painted.append hlist).append hend.painted
    rw [List.append_nil] at hall
    exact hall

theorem Rejection.clean_kind (r : Rejection) : Clean r.kind := by
  unfold kind
  split <;> exact clean_ofList (by decide)

/-- What is on offer is one of the texts. -/
theorem Rejection.suggestions_subset_texts (r : Rejection) :
    r.suggestions ⊆ r.texts := by
  unfold suggestions
  split
  case h_2 => exact List.subset_cons_of_subset _ (List.subset_cons_self _ _)
  case h_5 => exact List.nil_subset _
  all_goals exact List.subset_cons_self _ _

theorem painted_report {r : Rejection}
    (h : ∀ text ∈ r.texts, Clean text) :
    Painted (r.report .ansi) (r.report .plain)
      ([.header, .message] ++ r.suggestions.map (fun _ => .name)) := by
  have hgap : Verbatim "\n\n" := verbatim_ofList (by decide)
  have hend : Verbatim "\n" := verbatim_ofList (by decide)
  have hhint := painted_hint (fun name hname =>
    h name (r.suggestions_subset_texts hname))
  have hmessage := painted_paint .message (Rejection.verbatim_message h)
  have hreport := ((((painted_header r.clean_kind).append
    hgap.painted).append hmessage).append hhint).append hend.painted
  rw [List.append_nil] at hreport
  exact hreport

end Report

/-- **Colours change nothing but colour**, in a report, in a heading and in
the names on offer. What is asked is that the texts which come from outside
have no character that starts an escape sequence. Whatever else is in them
does not matter, what such a sequence goes on with included. -/
theorem Rejection.colours_change_only_colour :
    (∀ r : Rejection, (∀ text ∈ r.texts, Clean text) →
      ColourOnly (r.report .ansi) (r.report .plain)
        ([.header, .message] ++ r.suggestions.map (fun _ => .name)))
    ∧ (∀ kind : String, Clean kind →
      ColourOnly (Report.header kind .ansi) (Report.header kind .plain)
        [.header])
    ∧ ∀ names : List String, (∀ name ∈ names, Clean name) →
      ColourOnly (Report.hint names .ansi) (Report.hint names .plain)
        (names.map (fun _ => .name)) :=
  ⟨fun _ h => (painted_report h).colourOnly,
    fun _ h => (painted_header h).colourOnly,
    fun _ h => (painted_hint h).colourOnly⟩

/-- The names here are escape sequences that lack their first character, or
the first two. Joined with the sequences around them they are still
names. -/
theorem Rejection.colours_change_only_colour_rest :
    let r : Rejection := .undefinedReference "[36m" ["[31m", "0m"]
    (∀ text ∈ r.texts, Clean text)
      ∧ ColourOnly (r.report .ansi) (r.report .plain)
        [.header, .message, .name, .name] := by
  intro r
  have h : ∀ text ∈ r.texts, Clean text := by decide
  exact ⟨h, Rejection.colours_change_only_colour.1 r h⟩

end PredicateScript
