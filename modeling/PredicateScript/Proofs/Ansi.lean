import PredicateScript.Proofs.Lexeme

/-!
# Escape sequences in a text

A terminal is told about colours by escape sequences, `ESC [ digits m`,
that stand in the text. Nothing in the text says who put them there, so
what is said about them is said about a text as such: that it has been
deleted every sequence (`Ansi.strip`), and that every colour is turned off
before the next one is turned on (`Ansi.ClosesInTurn`).

Both go by how the text is read. `Ansi.tokens` reads it from the left, a
sequence where one starts and a character where none does. The reading
loses nothing (`Ansi.spell_tokens`), and it misses no sequence: wherever
one stands it is read as such, because the character it starts with is not
found inside a sequence, so that nothing before it can run into it
(`Ansi.tokens_append_sequence`).

The other way round, what is meant as text has to be read as text. A text
is *clean* if it lacks the one character that sequences start with, and
then it is read as its characters whatever comes after
(`Ansi.Clean.verbatim`); `[36m` is such a text.
-/

namespace PredicateScript

namespace Ansi

/-- The character that an escape sequence starts with. -/
def esc : Char := '\x1b'

/-- **An escape sequence**: `ESC [ digits m`. -/
def sequence (digits : List Char) : List Char :=
  esc :: '[' :: (digits ++ ['m'])

/-- What can stand in an escape sequence: digits, and one at least. -/
def IsCode (digits : List Char) : Prop :=
  digits ≠ [] ∧ digits.all Char.isDigit = true

instance (digits : List Char) : Decidable (IsCode digits) :=
  inferInstanceAs (Decidable (_ ∧ _))

/-- The code that turns any colour off. -/
def off : List Char := ['0']

/-- The digits of the escape sequence that a text starts with. -/
def code? : List Char → Option (List Char)
  | '\x1b' :: '[' :: s =>
    match s.takeWhile Char.isDigit, s.dropWhile Char.isDigit with
    | c :: digits, 'm' :: _ => some (c :: digits)
    | _, _ => none
  | _ => none

/-- **What a text is made of.** -/
inductive Token where
  /-- A character that is shown. -/
  | char (c : Char)
  /-- An escape sequence. -/
  | escape (digits : List Char)
  deriving DecidableEq, Repr

namespace Token

/-- The text of a token. -/
def spell : Token → List Char
  | char c => [c]
  | escape digits => sequence digits

/-- The character that is shown. -/
def char? : Token → Option Char
  | char c => some c
  | escape _ => none

/-- The digits of the sequence. -/
def digits? : Token → Option (List Char)
  | char _ => none
  | escape digits => some digits

end Token

/-- The tokens of a text after its first `skip` characters. -/
def tokensFrom : Nat → List Char → List Token
  | _, [] => []
  | skip + 1, _ :: s => tokensFrom skip s
  | 0, c :: s =>
    match code? (c :: s) with
    | some digits => .escape digits :: tokensFrom (digits.length + 2) s
    | none => .char c :: tokensFrom 0 s

/-- **The tokens of a text**, from left to right. -/
def tokens (s : List Char) : List Token := tokensFrom 0 s

/-- **A text with every escape sequence deleted.** -/
def strip (text : String) : String :=
  .ofList ((tokens text.toList).filterMap Token.char?)

/-- The digits of the escape sequences of a text, in order. -/
def codes (text : String) : List (List Char) :=
  (tokens text.toList).filterMap Token.digits?

/-- **No escape sequence stands in a text.** -/
def Colourless (s : List Char) : Prop :=
  ∀ before digits after, IsCode digits →
    s ≠ before ++ sequence digits ++ after

/-- **Every colour is turned off before the next one is turned on**: after
any escape sequence of the text but the one that turns colours off, that
one follows, and there is none between the two. -/
def ClosesInTurn (text : String) : Prop :=
  ∀ before digits after, IsCode digits → digits ≠ off →
    text.toList = before ++ sequence digits ++ after →
    ∃ inside rest, after = inside ++ sequence off ++ rest
      ∧ Colourless inside

/-! ## Reading from the left -/

/-- **Where a sequence starts, its digits are found**, and they are found
nowhere else. -/
theorem code?_eq_some_iff {s digits : List Char} :
    code? s = some digits
      ↔ IsCode digits ∧ ∃ rest, s = sequence digits ++ rest := by
  constructor
  · intro h
    unfold code? at h
    split at h
    · next s =>
      split at h
      · next c cs rest htake hdrop =>
        obtain rfl := Option.some.inj h
        have hall : (s.takeWhile Char.isDigit).all Char.isDigit = true :=
          List.all_takeWhile
        have hs : s.takeWhile Char.isDigit ++ s.dropWhile Char.isDigit = s :=
          List.takeWhile_append_dropWhile
        rw [htake] at hall
        refine ⟨⟨List.cons_ne_nil _ _, hall⟩, rest, ?_⟩
        rw [← hs, htake, hdrop]
        simp [sequence, esc]
      · cases h
    · cases h
  · rintro ⟨⟨hne, hdigits⟩, rest, rfl⟩
    obtain ⟨c, cs, rfl⟩ := List.exists_cons_of_ne_nil hne
    rw [List.all_eq_true] at hdigits
    show code? ('\x1b' :: '[' :: (c :: cs ++ ['m'] ++ rest)) = _
    rw [code?, List.append_assoc, List.takeWhile_append_of_pos hdigits,
      List.dropWhile_append_of_pos hdigits]
    show some (c :: (cs ++ [])) = _
    rw [List.append_nil]

theorem tokensFrom_eq (skip : Nat) (s : List Char) :
    tokensFrom skip s = tokens (s.drop skip) := by
  induction s generalizing skip with
  | nil => cases skip <;> rfl
  | cons c s ih =>
    cases skip with
    | zero => rfl
    | succ skip => exact ih skip

theorem tokens_cons_of_none {c : Char} {s : List Char}
    (h : code? (c :: s) = none) : tokens (c :: s) = .char c :: tokens s := by
  show tokensFrom 0 (c :: s) = _
  rw [tokensFrom, h]
  rfl

theorem tokens_sequence_append {digits : List Char} (h : IsCode digits)
    (s : List Char) :
    tokens (sequence digits ++ s) = .escape digits :: tokens s := by
  have hcode : code? (esc :: '[' :: (digits ++ ['m'] ++ s)) = some digits :=
    code?_eq_some_iff.mpr ⟨h, s, rfl⟩
  have hskip : ('[' :: (digits ++ ['m'] ++ s)).drop (digits.length + 2)
      = s := by
    simp
  show tokensFrom 0 (esc :: '[' :: (digits ++ ['m'] ++ s)) = _
  rw [tokensFrom, hcode]
  show Token.escape digits :: tokensFrom _ _ = _
  rw [tokensFrom_eq, hskip]

/-- **A text is read as it is made**: to know something of every text it
is enough to know it of a text that starts with a sequence, from what
comes after it, and of one that starts with a character that is none. -/
theorem induction_on_tokens {P : List Char → Prop} (nil : P [])
    (seq : ∀ digits s, IsCode digits → P s → P (sequence digits ++ s))
    (char : ∀ c s, code? (c :: s) = none → P s → P (c :: s))
    (s : List Char) : P s := by
  induction hn : s.length using Nat.strongRecOn generalizing s with
  | ind n ih =>
    cases s with
    | nil => exact nil
    | cons c s =>
      subst hn
      cases hcode : code? (c :: s) with
      | none => exact char c s hcode (ih _ (Nat.lt_succ_self _) s rfl)
      | some digits =>
        obtain ⟨hdigits, rest, hrest⟩ := code?_eq_some_iff.mp hcode
        rw [hrest] at ih ⊢
        refine seq digits rest hdigits (ih _ ?_ rest rfl)
        rw [List.length_append]
        exact Nat.lt_add_of_pos_left (Nat.succ_pos _)

/-- **Nothing is lost**: the tokens of a text spell it. -/
theorem spell_tokens (s : List Char) :
    (tokens s).flatMap Token.spell = s := by
  induction s using induction_on_tokens with
  | nil => rfl
  | seq digits s hdigits ih =>
    rw [tokens_sequence_append hdigits, List.flatMap_cons, ih]
    rfl
  | char c s hcode ih =>
    rw [tokens_cons_of_none hcode, List.flatMap_cons, ih]
    rfl

/-- No sequence starts inside another. -/
theorem IsCode.esc_notMem {digits : List Char} (h : IsCode digits) :
    esc ∉ '[' :: (digits ++ ['m']) := by
  rw [List.mem_cons, List.mem_append, List.mem_singleton]
  rintro (hbracket | hmem | hm)
  · exact absurd hbracket (by decide)
  · exact absurd (List.all_eq_true.mp h.2 esc hmem) (by decide)
  · exact absurd hm (by decide)

/-- Where no sequence starts, none starts either if another one comes
after the text. -/
theorem code?_append_eq_none {s : List Char} (h : code? s = none)
    (hs : s ≠ []) (t : List Char) : code? (s ++ esc :: t) = none := by
  refine Option.eq_none_iff_forall_ne_some.mpr (fun digits hcode => ?_)
  obtain ⟨hdigits, rest, hrest⟩ := code?_eq_some_iff.mp hcode
  have hnot : ∀ u, s ≠ sequence digits ++ u := fun u hu => by
    rw [code?_eq_some_iff.mpr ⟨hdigits, u, hu⟩] at h
    cases h
  rcases List.append_eq_append_iff.mp hrest with ⟨u, hu, hesc⟩ | ⟨u, hu, -⟩
  · -- the sequence would be longer than the text, and so have the first
    -- character of the other one inside
    cases u with
    | nil => exact hnot [] (by simpa using hu.symm)
    | cons x u =>
      obtain ⟨rfl, -⟩ := List.cons.inj hesc
      obtain ⟨c, s, rfl⟩ := List.exists_cons_of_ne_nil hs
      have htail : '[' :: (digits ++ ['m']) = s ++ esc :: u :=
        (List.cons.inj hu).2
      exact hdigits.esc_notMem (by rw [htail]; simp)
  · exact hnot u hu

/-- **No sequence is missed**, wherever it stands. -/
theorem tokens_append_sequence {digits : List Char} (h : IsCode digits)
    (s t : List Char) :
    tokens (s ++ sequence digits ++ t)
      = tokens s ++ .escape digits :: tokens t := by
  rw [List.append_assoc]
  induction s using induction_on_tokens with
  | nil => exact tokens_sequence_append h t
  | seq other s hother ih =>
    rw [List.append_assoc, tokens_sequence_append hother,
      tokens_sequence_append hother, ih]
    rfl
  | char c s hcode ih =>
    rw [tokens_cons_of_none hcode]
    show tokens (c :: (s ++ (sequence digits ++ t))) = _
    rw [tokens_cons_of_none, ih]
    · rfl
    · exact code?_append_eq_none hcode (List.cons_ne_nil _ _) _

/-! ## Texts that are shown as they stand -/

/-- **A text is read as the given tokens**, whatever comes after. -/
def Reads (s : List Char) (ts : List Token) : Prop :=
  ∀ rest, tokens (s ++ rest) = ts ++ tokens rest

theorem Reads.append {s t : List Char} {ts us : List Token}
    (hs : Reads s ts) (ht : Reads t us) : Reads (s ++ t) (ts ++ us) := by
  intro rest
  rw [List.append_assoc, hs, ht, List.append_assoc]

theorem reads_sequence {digits : List Char} (h : IsCode digits) :
    Reads (sequence digits) [.escape digits] :=
  tokens_sequence_append h

/-- Only its first character starts a sequence. -/
theorem code?_cons_of_ne {c : Char} (h : c ≠ esc) (s : List Char) :
    code? (c :: s) = none := by
  refine Option.eq_none_iff_forall_ne_some.mpr (fun digits hcode => ?_)
  obtain ⟨-, rest, hrest⟩ := code?_eq_some_iff.mp hcode
  exact h (List.cons.inj hrest).1

/-- **A text without the character that sequences start with is read as
its characters.** -/
theorem reads_of_notMem {s : List Char} (h : esc ∉ s) :
    Reads s (s.map .char) := by
  intro rest
  induction s with
  | nil => rfl
  | cons c s ih =>
    rw [List.mem_cons, not_or] at h
    show tokens (c :: (s ++ rest)) = .char c :: (s.map .char ++ tokens rest)
    rw [tokens_cons_of_none (code?_cons_of_ne (Ne.symm h.1) _), ih h.2]

/-- Any character before a blank is read as itself, also the one that
sequences start with. -/
theorem reads_before_blank (c : Char) :
    Reads [c, ' '] [.char c, .char ' '] := by
  intro rest
  have hblank : tokens (' ' :: rest) = .char ' ' :: tokens rest :=
    tokens_cons_of_none (code?_cons_of_ne (by decide) rest)
  have hcode : code? (c :: ' ' :: rest) = none := by
    by_cases hc : c = esc
    · rw [hc]
      rfl
    · exact code?_cons_of_ne hc _
  show tokens (c :: ' ' :: rest) = .char c :: .char ' ' :: tokens rest
  rw [tokens_cons_of_none hcode, hblank]

/-- **A text is shown as it stands.** -/
def Verbatim (text : String) : Prop :=
  Reads text.toList (text.toList.map .char)

theorem Verbatim.append {a b : String} (ha : Verbatim a)
    (hb : Verbatim b) : Verbatim (a ++ b) := by
  unfold Verbatim
  rw [String.toList_append, List.map_append]
  exact Reads.append ha hb

/-- **A text without escape sequences**, for want of the character that
they start with. -/
def Clean (text : String) : Prop := esc ∉ text.toList

instance (text : String) : Decidable (Clean text) :=
  inferInstanceAs (Decidable (esc ∉ text.toList))

theorem Clean.verbatim {text : String} (h : Clean text) : Verbatim text :=
  reads_of_notMem h

/-- A text that is spelt out is clean if none of its characters starts a
sequence. -/
theorem clean_ofList {s : List Char} (h : esc ∉ s) : Clean (.ofList s) := by
  unfold Clean
  rw [String.toList_ofList]
  exact h

theorem verbatim_ofList {s : List Char} (h : esc ∉ s) :
    Verbatim (.ofList s) :=
  (clean_ofList h).verbatim

@[simp] theorem clean_append {a b : String} :
    Clean (a ++ b) ↔ Clean a ∧ Clean b := by
  unfold Clean
  rw [String.toList_append, List.mem_append, not_or]

/-- Numbers are written in digits. -/
@[simp] theorem clean_toString (n : Nat) : Clean (toString n) := by
  intro hmem
  have hword := List.all_eq_true.mp
    (all_isWordChar_toDigits (by decide) (by decide) n) esc
    (Nat.toList_repr ▸ hmem)
  exact absurd hword (by decide)

/-! ## Codes in pairs -/

/-- The given codes, each with the one that turns it off. -/
def paired (opened : List (List Char)) : List (List Char) :=
  opened.flatMap (fun digits => [digits, off])

theorem paired_cons (digits : List Char) (opened : List (List Char)) :
    paired (digits :: opened) = digits :: off :: paired opened := rfl

/-- In pairs, any other code is followed by the one that turns it off. -/
theorem off_follows {opened before after : List (List Char)}
    {digits : List Char} (hdigits : digits ≠ off)
    (h : paired opened = before ++ digits :: after) :
    ∃ more, after = off :: more := by
  induction opened generalizing before with
  | nil => simp [paired] at h
  | cons first opened ih =>
    rw [paired_cons] at h
    match before with
    | [] => exact ⟨_, (List.cons.inj h).2.symm⟩
    | [_] => exact absurd (List.cons.inj (List.cons.inj h).2).1.symm hdigits
    | _ :: _ :: before =>
      exact ih (List.cons.inj (List.cons.inj h).2).2

/-- Tokens that spell the same as more of them are all of them. -/
theorem eq_of_prefix_of_spell_eq {ts us : List Token} (h : ts <+: us)
    (hspell : ts.flatMap Token.spell = us.flatMap Token.spell) :
    ts = us := by
  obtain ⟨more, rfl⟩ := h
  rw [List.flatMap_append, List.self_eq_append_right] at hspell
  cases more with
  | nil => exact (List.append_nil ts).symm
  | cons t more => cases t <;> cases hspell

/-- What is read up to a sequence is read so also where the text ends
before it. -/
theorem tokens_spell {s : List Char} {ts us : List Token}
    {digits : List Char} (h : IsCode digits)
    (hs : tokens s = ts ++ .escape digits :: us) :
    tokens (ts.flatMap Token.spell) = ts := by
  have hsplit : s = ts.flatMap Token.spell ++ sequence digits
      ++ us.flatMap Token.spell := by
    rw [← spell_tokens s, hs]
    simp [Token.spell]
  have hread := tokens_append_sequence h (ts.flatMap Token.spell)
    (us.flatMap Token.spell)
  rw [← hsplit, hs] at hread
  have hcompare := List.prefix_or_prefix_of_prefix
    (List.prefix_append ts (.escape digits :: us))
    (hread ▸ List.prefix_append (tokens (ts.flatMap Token.spell)) _)
  rcases hcompare with hle | hle
  · exact (eq_of_prefix_of_spell_eq hle (spell_tokens _).symm).symm
  · exact eq_of_prefix_of_spell_eq hle (spell_tokens _)

/-- A text in which no sequence is read has none. -/
theorem colourless_of_tokens {s : List Char}
    (h : (tokens s).filterMap Token.digits? = []) : Colourless s := by
  rintro before digits after hdigits rfl
  rw [tokens_append_sequence hdigits] at h
  simp [Token.digits?] at h

/-- **Codes that come in pairs are closed in turn.** -/
theorem closesInTurn_of_codes {text : String} {opened : List (List Char)}
    (h : codes text = paired opened) : ClosesInTurn text := by
  intro before digits after hdigits hoff htext
  have hcodes : paired opened
      = (tokens before).filterMap Token.digits?
        ++ digits :: (tokens after).filterMap Token.digits? := by
    rw [← h, codes, htext, tokens_append_sequence hdigits,
      List.filterMap_append, List.filterMap_cons]
    rfl
  obtain ⟨more, hmore⟩ := off_follows hoff hcodes
  obtain ⟨ts, t, us, hafter, hts, ht, -⟩ :=
    List.filterMap_eq_cons_iff.mp hmore
  obtain rfl : t = .escape off := by
    cases t with
    | char c => cases ht
    | escape d => rw [Option.some.inj ht]
  refine ⟨ts.flatMap Token.spell, us.flatMap Token.spell, ?_, ?_⟩
  · rw [← spell_tokens after, hafter]
    simp [Token.spell]
  · refine colourless_of_tokens ?_
    rw [tokens_spell (by decide) hafter]
    exact List.filterMap_eq_nil_iff.mpr hts

end Ansi

end PredicateScript
