import PredicateScript.Literal
import PredicateScript.Operator
import Mathlib.Data.List.Basic

/-!
# Words and constants can be read back

The text of a script is made of words, constants and marks. A **reader**
takes one of these off the front of a text and gives it with the text that
is left, and for each kind there is a reader that undoes the writing of it,
whatever comes after.

A **word** is as long as its characters are letters, digits or underscores
(`Reader.word`). Names are words, and so are keywords, the two truth
values, and constants of digits, so where a word ends is the same for all
of them: where the text does not go on with such a character (`WordEnds`).
A **plain name** is a word that starts with no digit and has no meaning of
its own (`isPlainName`), which sets names apart from all other words.

Only a quoted text does not end with its word. It ends at the first quote
that is not part of the writing of a character, and no character is written
by a quote alone (`Reader.character_escape`). So a list of quoted texts can
be read back whatever is in them, commas included (`Reader.texts_append`).
-/

namespace PredicateScript

/-- **A reader** takes something off the front of a text: what it is, and
the text that is left. -/
abbrev Reader (β : Type) := List Char → Option (β × List Char)

namespace Reader

variable {β : Type}

/-- Read past the given text. -/
def expect (w : String) (s : List Char) : Option (List Char) :=
  s.dropPrefix? w.toList

@[simp] theorem expect_append (w : String) (s : List Char) :
    expect w (w.toList ++ s) = some s :=
  List.dropPrefix?_append_of_beq s (beq_self_eq_true _)

/-- **Read as many as there are**, one after the other. -/
def many (item : Reader β) (s : List Char) : List β × List Char :=
  match item s with
  | none => ([], s)
  | some (b, rest) =>
    if rest.length < s.length then
      let (bs, rest) := many item rest
      (b :: bs, rest)
    else ([], s)
termination_by s.length

/-- What holds where any item starts, and at the end, holds where the
items start. -/
theorem stops_flatMap_append {text : β → List Char}
    {Stops : List Char → Prop} {bs : List β} {rest : List Char}
    (hstops : ∀ b ∈ bs, ∀ s, Stops (text b ++ s)) (hrest : Stops rest) :
    Stops (bs.flatMap text ++ rest) := by
  cases bs with
  | nil => exact hrest
  | cons b bs =>
    rw [List.flatMap_cons, List.append_assoc]
    exact hstops b List.mem_cons_self _

/-- **What was written one after the other is read one after the other**,
up to where nothing more can be read. An item may need to know how the text
goes on, which is what `Stops` is for. -/
theorem many_flatMap {item : Reader β} {text : β → List Char}
    (Stops : List Char → Prop) {bs : List β} {rest : List Char}
    (hne : ∀ b ∈ bs, text b ≠ [])
    (hstops : ∀ b ∈ bs, ∀ s, Stops (text b ++ s))
    (hitem : ∀ b ∈ bs, ∀ s, Stops s → item (text b ++ s) = some (b, s))
    (hrest : Stops rest) (hend : item rest = none) :
    many item (bs.flatMap text ++ rest) = (bs, rest) := by
  induction bs with
  | nil =>
    rw [List.flatMap_nil, List.nil_append, many, hend]
  | cons b bs ih =>
    rw [List.forall_mem_cons] at hne hstops hitem
    have hnext := stops_flatMap_append hstops.2 hrest
    have hshorter : (bs.flatMap text ++ rest).length
        < (text b ++ (bs.flatMap text ++ rest)).length := by
      rw [@List.length_append _ (text b)]
      exact Nat.lt_add_of_pos_left (List.length_pos_iff.mpr hne.1)
    rw [List.flatMap_cons, List.append_assoc, many, hitem.1 _ hnext]
    simp only [hshorter, if_true, ih hne.2 hstops.2 hitem.2]

theorem expect_eq_none {w : String} {s : List Char} {c : Char}
    (hw : w.toList.head? = some c) (hs : s.head? ≠ some c) :
    expect w s = none := by
  obtain ⟨cs, hcs⟩ := List.head?_eq_some_iff.mp hw
  rw [expect, hcs]
  cases s with
  | nil => rfl
  | cons d s =>
    have hne : d ≠ c := fun h => hs (by rw [h]; rfl)
    rw [List.dropPrefix?, if_neg (by simpa using hne)]

/-- **Read a list**: items with a comma between them, and the mark that
closes it. -/
def listed (item : Reader β) (close : String) : Reader (List β) := fun s =>
  match item s with
  | none => (expect close s).map ([], ·)
  | some (b, s) =>
    let (bs, s) := many (fun s => (expect ", " s).bind item) s
    (expect close s).map (b :: bs, ·)

/-- The text of a list: the first item, and a comma before each of the
others. -/
theorem toList_intercalate_cons (w : String) (ws : List String) :
    (", ".intercalate (w :: ws)).toList
      = w.toList ++ ws.flatMap (fun v => ", ".toList ++ v.toList) := by
  induction ws generalizing w with
  | nil => rw [String.intercalate_singleton, List.flatMap_nil,
      List.append_nil]
  | cons v ws ih =>
    rw [String.intercalate_cons_cons, String.toList_append,
      String.toList_append, ih v, List.flatMap_cons, List.append_assoc,
      List.append_assoc]

/-- **A list is read as it was written**, if an item is wherever the list
goes on or is closed. -/
theorem listed_append {item : Reader β} {text : β → String}
    (Stops : List Char → Prop) {bs : List β} {close : String} {c : Char}
    {rest : List Char} (hclose : close.toList.head? = some c) (hc : c ≠ ',')
    (hcomma : ∀ s, Stops (", ".toList ++ s))
    (hrest : Stops (close.toList ++ rest))
    (hend : item (close.toList ++ rest) = none)
    (hitem : ∀ b ∈ bs, ∀ s, Stops s →
      item ((text b).toList ++ s) = some (b, s)) :
    listed item close ((", ".intercalate (bs.map text)).toList
        ++ (close.toList ++ rest))
      = some (bs, rest) := by
  cases bs with
  | nil =>
    rw [List.map_nil, String.intercalate_nil]
    show listed item close (close.toList ++ rest) = _
    rw [listed, hend, expect_append]
    rfl
  | cons b bs =>
    obtain ⟨hb, hbs⟩ := List.forall_mem_cons.mp hitem
    have htexts : (", ".intercalate ((b :: bs).map text)).toList
          ++ (close.toList ++ rest)
        = (text b).toList
          ++ (bs.flatMap (fun b => ", ".toList ++ (text b).toList)
            ++ (close.toList ++ rest)) := by
      rw [List.map_cons, toList_intercalate_cons, List.flatMap_map,
        List.append_assoc]
    have hnext : ∀ b s, Stops (", ".toList ++ (text b).toList ++ s) := by
      intro b s
      rw [List.append_assoc]
      exact hcomma _
    have hmany : many (fun s => (expect ", " s).bind item)
          (bs.flatMap (fun b => ", ".toList ++ (text b).toList)
            ++ (close.toList ++ rest))
        = (bs, close.toList ++ rest) := by
      refine many_flatMap Stops ?_ (fun b _ => hnext b) ?_ hrest ?_
      · intro b _
        exact List.append_ne_nil_of_left_ne_nil (by decide) _
      · intro b hb s hs
        rw [List.append_assoc, expect_append]
        exact hbs b hb s hs
      · rw [expect_eq_none (c := ',') rfl]
        · rfl
        · rw [List.head?_append, hclose]
          simpa using hc
    rw [htexts, listed,
      hb _ (stops_flatMap_append (fun b _ => hnext b) hrest)]
    simp only [hmany, expect_append, Option.map_some]

end Reader

/-! ## Words and names -/

/-- A character that words are made of. -/
def isWordChar (c : Char) : Bool :=
  c.isAlphanum || c == '_'

/-- **A word ends here**: the text does not go on with a character of a
word. -/
def WordEnds (s : List Char) : Prop :=
  ∀ c ∈ s.head?, isWordChar c = false

/-- How a text goes on is told by the first character. -/
theorem forall_head?_append {P : Char → Prop} {w : String} {c : Char}
    (hw : w.toList.head? = some c) (hc : P c) (s : List Char) :
    ∀ d ∈ (w.toList ++ s).head?, P d := by
  intro d hd
  rw [List.head?_append, hw] at hd
  cases hd
  exact hc

theorem wordEnds_append {w : String} {c : Char}
    (hw : w.toList.head? = some c) (hc : isWordChar c = false)
    (s : List Char) : WordEnds (w.toList ++ s) :=
  forall_head?_append hw hc s

/-- The word at the front of a text, which may be empty. -/
def Reader.word (s : List Char) : List Char × List Char :=
  (s.takeWhile isWordChar, s.dropWhile isWordChar)

theorem Reader.word_append {w rest : List Char}
    (hw : w.all isWordChar = true) (hrest : WordEnds rest) :
    word (w ++ rest) = (w, rest) := by
  have htake : rest.takeWhile isWordChar = [] := by
    cases rest with
    | nil => rfl
    | cons c rest => rw [List.takeWhile_cons, hrest c rfl]; rfl
  have hdrop : rest.dropWhile isWordChar = rest := by
    cases rest with
    | nil => rfl
    | cons c rest => rw [List.dropWhile_cons, hrest c rfl]; rfl
  have hw := List.all_eq_true.mp hw
  rw [word, List.takeWhile_append_of_pos hw, List.dropWhile_append_of_pos hw,
    htake, hdrop, List.append_nil]

/-- The words with a meaning of their own. -/
def reservedWords : List String :=
  ["let", "if", "then", "else", "true", "false"]

/-- **A plain name**: a letter or an underscore, and then letters, digits
and underscores; and not a word with a meaning of its own. -/
def isPlainName (name : String) : Bool :=
  match name.toList with
  | [] => false
  | c :: cs =>
    (c.isAlpha || c == '_') && cs.all isWordChar
      && !reservedWords.contains name

theorem isDigit_eq_false_of_isAlpha {c : Char} (h : c.isAlpha = true) :
    c.isDigit = false := by
  have hletter : 'A'.val ≤ c.val := by
    rcases Bool.or_eq_true_iff.mp h with hupper | hlower
    · exact (of_decide_eq_true hupper).1
    · have hle : 'a'.val ≤ c.val :=
        of_decide_eq_true (Bool.and_eq_true_iff.mp hlower).1
      exact UInt32.le_trans (by decide) hle
  refine Bool.eq_false_iff.mpr (fun hdigit => ?_)
  have hle : c.val ≤ '9'.val :=
    of_decide_eq_true (Bool.and_eq_true_iff.mp hdigit).2
  exact absurd (UInt32.le_trans hletter hle) (by decide)

/-- A plain name is a word, starts with no digit, and is not reserved. -/
theorem of_isPlainName {name : String} (h : isPlainName name = true) :
    (∃ c cs, name.toList = c :: cs ∧ c.isDigit = false)
      ∧ name.toList.all isWordChar = true
      ∧ name ∉ reservedWords := by
  unfold isPlainName at h
  split at h
  · cases h
  · next c cs hname =>
    simp only [Bool.and_eq_true, Bool.or_eq_true, beq_iff_eq,
      List.all_eq_true, Bool.not_eq_true', List.contains_eq_mem,
      decide_eq_false_iff_not] at h
    obtain ⟨⟨hc, hcs⟩, hreserved⟩ := h
    refine ⟨⟨c, cs, hname, ?_⟩, ?_, hreserved⟩
    · rcases hc with hc | rfl
      · exact isDigit_eq_false_of_isAlpha hc
      · rfl
    · rw [hname]
      refine List.all_eq_true.mpr (List.forall_mem_cons.mpr ⟨?_, hcs⟩)
      rcases hc with hc | rfl
      · simp [isWordChar, Char.isAlphanum, hc]
      · rfl

/-- Read a plain name. -/
def Reader.name : Reader String := fun s =>
  let (w, rest) := word s
  if isPlainName (String.ofList w) then some (String.ofList w, rest)
  else none

theorem Reader.name_append {name : String} {rest : List Char}
    (hname : isPlainName name = true) (hrest : WordEnds rest) :
    Reader.name (name.toList ++ rest) = some (name, rest) := by
  rw [Reader.name, word_append (of_isPlainName hname).2.1 hrest]
  simp [hname]

/-! ## Numbers and bytes -/

/-- The value of a digit, in bases up to sixteen. -/
def digitValue (c : Char) : Nat :=
  if c.isDigit then c.toNat - 48 else c.toNat - 87

theorem digitValue_digitChar :
    ∀ {d : Nat}, d < 16 → digitValue d.digitChar = d := by
  decide

theorem isWordChar_digitChar :
    ∀ {d : Nat}, d < 16 → isWordChar d.digitChar = true := by
  decide

/-- The number that is written by the given digits. -/
def numberOf (base : Nat) (w : List Char) : Nat :=
  w.foldl (fun n c => base * n + digitValue c) 0

section Digits

variable {base : Nat}

/-- **A number is the number its digits write.** -/
theorem numberOf_toDigits (hb : 1 < base) (hb' : base ≤ 16) (n : Nat) :
    numberOf base (Nat.toDigits base n) = n := by
  induction n using Nat.strongRecOn with
  | ind n ih =>
    rw [Nat.toDigits_eq_if hb]
    split
    · next hlt =>
      show base * 0 + digitValue n.digitChar = n
      rw [digitValue_digitChar (Nat.lt_of_lt_of_le hlt hb'), Nat.mul_zero,
        Nat.zero_add]
    · next hge =>
      have hquot := ih (n / base) (Nat.div_lt_self (by omega) hb)
      have hmod : n % base < 16 :=
        Nat.lt_of_lt_of_le (Nat.mod_lt n (by omega)) hb'
      rw [numberOf] at hquot ⊢
      rw [List.foldl_append, hquot]
      show base * (n / base) + digitValue (n % base).digitChar = n
      rw [digitValue_digitChar hmod, Nat.div_add_mod]

theorem exists_of_mem_toDigits {n : Nat} {c : Char} (hb : 1 < base)
    (h : c ∈ Nat.toDigits base n) : ∃ d < base, c = d.digitChar := by
  induction n using Nat.strongRecOn with
  | ind n ih =>
    rw [Nat.toDigits_eq_if hb] at h
    split at h
    · next hlt => exact ⟨n, hlt, List.mem_singleton.mp h⟩
    · next hge =>
      rcases List.mem_append.mp h with h | h
      · exact ih (n / base) (Nat.div_lt_self (by omega) hb) h
      · exact ⟨n % base, Nat.mod_lt n (by omega), List.mem_singleton.mp h⟩

/-- The digits of a number are a word. -/
theorem all_isWordChar_toDigits (hb : 1 < base) (hb' : base ≤ 16) (n : Nat) :
    (Nat.toDigits base n).all isWordChar = true := by
  refine List.all_eq_true.mpr (fun c hc => ?_)
  obtain ⟨d, hd, rfl⟩ := exists_of_mem_toDigits hb hc
  exact isWordChar_digitChar (Nat.lt_of_lt_of_le hd hb')

end Digits

/-- The bytes that are written by the given hexadecimal digits. -/
def bytesOf : List Char → List UInt8
  | high :: low :: w =>
    .ofNat (16 * digitValue high + digitValue low) :: bytesOf w
  | _ => []

/-- **Bytes are the bytes their digits write.** -/
theorem bytesOf_hex (bs : List UInt8) :
    bytesOf (bs.flatMap Literal.hexByte) = bs := by
  induction bs with
  | nil => rfl
  | cons b bs ih =>
    have hb := b.toNat_lt
    show UInt8.ofNat (16 * digitValue (b.toNat / 16).digitChar
      + digitValue (b.toNat % 16).digitChar)
        :: bytesOf (bs.flatMap Literal.hexByte) = _
    rw [ih, digitValue_digitChar (by omega), digitValue_digitChar (by omega),
      Nat.div_add_mod, UInt8.ofNat_toNat]

/-- The digits of bytes are a word. -/
theorem all_isWordChar_hex (bs : List UInt8) :
    (bs.flatMap Literal.hexByte).all isWordChar = true := by
  refine List.all_eq_true.mpr (fun c h => ?_)
  obtain ⟨b, -, hc⟩ := List.mem_flatMap.mp h
  have hb := b.toNat_lt
  rcases List.mem_pair.mp hc with rfl | rfl
  · exact isWordChar_digitChar (by omega)
  · exact isWordChar_digitChar (by omega)

/-! ## Quoted text -/

/-- The character that an escape of one letter stands for. -/
def escaped? : Char → Option Char
  | '"' => some '"'
  | '\\' => some '\\'
  | 't' => some '\t'
  | 'n' => some '\n'
  | 'r' => some '\r'
  | '0' => some '\x00'
  | _ => none

/-- **Read a character of a quoted text.** There is none where the text
ends. -/
def Reader.character : Reader Char
  | '\\' :: 'u' :: '\x7b' :: s =>
    some (.ofNat (numberOf 16 (s.takeWhile (· ≠ '\x7d'))),
      (s.dropWhile (· ≠ '\x7d')).drop 1)
  | '\\' :: c :: s => (escaped? c).map (·, s)
  | '"' :: _ => none
  | c :: s => some (c, s)
  | [] => none

theorem Reader.character_codePointEscape (c : Char) (rest : List Char) :
    character (Text.codePointEscape c ++ rest) = some (c, rest) := by
  have hdigits : ∀ d ∈ Nat.toDigits 16 c.toNat,
      decide (d ≠ '\x7d') = true := by
    intro d hd
    have hword := List.all_eq_true.mp
      (all_isWordChar_toDigits (by decide) (by decide) c.toNat) d hd
    refine decide_eq_true ?_
    rintro rfl
    cases hword
  show character ('\\' :: 'u' :: '\x7b'
    :: (Nat.toDigits 16 c.toNat ++ ['\x7d'] ++ rest)) = _
  rw [character, List.append_assoc, List.takeWhile_append_of_pos hdigits,
    List.dropWhile_append_of_pos hdigits]
  show some (Char.ofNat (numberOf 16 (Nat.toDigits 16 c.toNat ++ [])), rest)
    = _
  rw [List.append_nil, numberOf_toDigits (by decide) (by decide),
    Char.ofNat_toNat]

/-- **A character is read as it was written.** -/
theorem Reader.character_escape (c : Char) (rest : List Char) :
    character (Text.escape c ++ rest) = some (c, rest) := by
  unfold Text.escape
  split_ifs with hquote hslash htab hfeed hreturn hnull hmark
  · rw [hquote]; rfl
  · rw [hslash]; rfl
  · rw [htab]; rfl
  · rw [hfeed]; rfl
  · rw [hreturn]; rfl
  · rw [hnull]; rfl
  · exact character_codePointEscape c rest
  · show character (c :: rest) = some (c, rest)
    unfold character
    split
    · next h => exact absurd (List.cons.inj h).1 hslash
    · next h => exact absurd (List.cons.inj h).1 hslash
    · next h => exact absurd (List.cons.inj h).1 hquote
    · next h =>
      obtain ⟨rfl, rfl⟩ := List.cons.inj h
      rfl
    · next h => cases h

theorem Text.escape_ne_nil (c : Char) : escape c ≠ [] := by
  unfold escape codePointEscape
  split_ifs <;> simp

/-- Read a text up to the quote that ends it. -/
def Reader.text : Reader String := fun s =>
  let (cs, rest) := many character s
  (expect "\"" rest).map (String.ofList cs, ·)

theorem Reader.text_append (s : String) (rest : List Char) :
    Reader.text (s.toList.flatMap Text.escape ++ '"' :: rest)
      = some (s, rest) := by
  have hmany : many character (s.toList.flatMap Text.escape ++ '"' :: rest)
      = (s.toList, '"' :: rest) :=
    many_flatMap (fun _ => True)
      (fun c _ => Text.escape_ne_nil c) (fun _ _ _ => trivial)
      (fun c _ s _ => character_escape c s) trivial rfl
  have hend : expect "\"" ('"' :: rest) = some rest := expect_append _ _
  rw [Reader.text, hmany]
  simp only [hend, Option.map_some, String.ofList_toList]

/-- Read a text between quotes. -/
def Reader.quoted : Reader String := fun s =>
  (expect "\"" s).bind text

theorem Reader.quoted_append (s : String) (rest : List Char) :
    Reader.quoted ((Text.quoted s).toList ++ rest) = some (s, rest) := by
  have htext : (Text.quoted s).toList ++ rest
      = "\"".toList ++ (s.toList.flatMap Text.escape ++ '"' :: rest) := by
    simp [Text.quoted]
  rw [htext, Reader.quoted, expect_append]
  exact text_append s rest

/-- Read a list of texts between brackets. -/
def Reader.texts : Reader (List String) := fun s =>
  (expect "[" s).bind (listed quoted "]")

/-- **A list of texts is read as it was written**, whatever is in the
texts. -/
theorem Reader.texts_append (l : List String) (rest : List Char) :
    Reader.texts ((Text.quotedList l).toList ++ rest) = some (l, rest) := by
  have htext : (Text.quotedList l).toList ++ rest
      = "[".toList ++ ((", ".intercalate (l.map Text.quoted)).toList
        ++ ("]".toList ++ rest)) := by
    rw [Text.quotedList, String.toList_append, String.toList_append,
      List.append_assoc, List.append_assoc]
  rw [htext, Reader.texts, expect_append]
  exact listed_append (fun _ => True) rfl (by decide) (fun _ => trivial)
    trivial rfl (fun s _ rest _ => quoted_append s rest)

/-! ## Constants -/

/-- The constant that a word is, if it is one. -/
def Literal.ofWord? (w : List Char) : Option Literal :=
  if w = "true".toList then some (.bool true)
  else if w = "false".toList then some (.bool false)
  else
    match w with
    | '0' :: 'x' :: hex => some (.bytes (bytesOf hex))
    | c :: cs =>
      if c.isDigit then some (.long (.ofInt (numberOf 10 (c :: cs))))
      else none
    | [] => none

/-- **Read a constant.** -/
def Reader.literal : Reader Literal
  | '"' :: s => (text s).map (fun (s, rest) => (.text s, rest))
  | '-' :: s =>
    let (w, rest) := word s
    some (.long (.ofInt (-numberOf 10 w)), rest)
  | s =>
    let (w, rest) := word s
    (Literal.ofWord? w).map (·, rest)

section Constants

variable {rest : List Char}

/-- A word is read as the constant it is. -/
theorem Reader.literal_of_word {w : List Char} (hne : w ≠ [])
    (hw : w.all isWordChar = true) (hrest : WordEnds rest) :
    literal (w ++ rest) = (Literal.ofWord? w).map (·, rest) := by
  have hword := word_append hw hrest
  obtain ⟨c, cs, rfl⟩ := List.exists_cons_of_ne_nil hne
  have hc := List.all_eq_true.mp hw c List.mem_cons_self
  rw [List.cons_append] at hword ⊢
  unfold literal
  split
  · next hquote =>
    obtain ⟨rfl, -⟩ := List.cons.inj hquote
    cases hc
  · next hminus =>
    obtain ⟨rfl, -⟩ := List.cons.inj hminus
    cases hc
  · rw [hword]

/-- No constant starts with a mark, quotes and signs apart. -/
theorem Reader.literal_of_mark {c : Char} (hc : isWordChar c = false)
    (hquote : c ≠ '"') (hminus : c ≠ '-') (s : List Char) :
    literal (c :: s) = none := by
  have hword : word (c :: s) = ([], c :: s) :=
    word_append (w := []) (by simp) (fun d hd => by cases hd; exact hc)
  unfold literal
  split
  · next h => exact absurd (List.cons.inj h).1 hquote
  · next h => exact absurd (List.cons.inj h).1 hminus
  · rw [hword]; rfl

/-- A word of digits is a number. -/
theorem Literal.ofWord?_of_digits {w : List Char} (hne : w ≠ [])
    (hw : ∀ c ∈ w, c.isDigit = true) :
    ofWord? w = some (.long (.ofInt (numberOf 10 w))) := by
  obtain ⟨c, cs, rfl⟩ := List.exists_cons_of_ne_nil hne
  have hc := hw c List.mem_cons_self
  have hother : ∀ {d : Char} {ds : List Char}, d.isDigit = false →
      c :: cs ≠ d :: ds := by
    rintro d ds hd heq
    rw [(List.cons.inj heq).1, hd] at hc
    cases hc
  have htrue : c :: cs ≠ "true".toList := hother rfl
  have hfalse : c :: cs ≠ "false".toList := hother rfl
  unfold ofWord?
  rw [if_neg htrue, if_neg hfalse]
  split
  · next h =>
    obtain ⟨rfl, rfl⟩ := List.cons.inj h
    cases hw 'x' (by simp)
  · next h =>
    obtain ⟨rfl, rfl⟩ := List.cons.inj h
    rw [if_pos hc]
  · next h => cases h

/-- A plain name is no constant. -/
theorem Literal.ofWord?_of_isPlainName {name : String}
    (h : isPlainName name = true) : ofWord? name.toList = none := by
  obtain ⟨⟨c, cs, hname, hc⟩, -, hreserved⟩ := of_isPlainName h
  have hne : ∀ word ∈ reservedWords, name.toList ≠ word.toList := by
    intro word hword heq
    rw [String.toList_injective heq] at hreserved
    exact hreserved hword
  unfold ofWord?
  rw [if_neg (hne "true" (by decide)), if_neg (hne "false" (by decide)),
    hname]
  split
  · next h =>
    obtain ⟨rfl, -⟩ := List.cons.inj h
    cases hc
  · next h =>
    obtain ⟨rfl, -⟩ := List.cons.inj h
    rw [hc]
    rfl
  · rfl

theorem Reader.literal_digits (n : Nat) (hrest : WordEnds rest) :
    literal (Nat.toDigits 10 n ++ rest)
      = some (.long (.ofInt n), rest) := by
  have hw : (Nat.toDigits 10 n).all isWordChar = true :=
    all_isWordChar_toDigits (by decide) (by decide) n
  rw [literal_of_word Nat.toDigits_ne_nil hw hrest,
    Literal.ofWord?_of_digits Nat.toDigits_ne_nil (fun c hc =>
      Nat.isDigit_of_mem_toDigits (by decide) (by decide) hc),
    numberOf_toDigits (by decide) (by decide)]
  rfl

theorem Reader.literal_minus (n : Nat) (hrest : WordEnds rest) :
    literal ('-' :: (Nat.toDigits 10 n ++ rest))
      = some (.long (.ofInt (-n)), rest) := by
  have hw : (Nat.toDigits 10 n).all isWordChar = true :=
    all_isWordChar_toDigits (by decide) (by decide) n
  rw [literal, word_append hw hrest]
  simp only [numberOf_toDigits (by decide : 1 < 10) (by decide)]

/-- **A constant is read as it was written.** -/
theorem Reader.literal_render (value : Literal) (hrest : WordEnds rest) :
    literal (value.render.toList ++ rest) = some (value, rest) := by
  cases value with
  | long n =>
    show literal ((toString n.toInt).toList ++ rest) = _
    cases hn : n.toInt with
    | ofNat m =>
      show literal (m.repr.toList ++ rest) = _
      rw [Nat.toList_repr, literal_digits m hrest]
      show some (Literal.long (.ofInt (.ofNat m)), rest) = _
      rw [← hn, Int64.ofInt_toInt]
    | negSucc m =>
      show literal (("-" ++ (m + 1).repr).toList ++ rest) = _
      rw [String.toList_append, Nat.toList_repr]
      show literal ('-' :: (Nat.toDigits 10 (m + 1) ++ rest)) = _
      rw [literal_minus (m + 1) hrest]
      show some (Literal.long (.ofInt (.negSucc m)), rest) = _
      rw [← hn, Int64.ofInt_toInt]
  | bytes bs =>
    have hw : ('0' :: 'x' :: bs.flatMap Literal.hexByte).all isWordChar
        = true := all_isWordChar_hex bs
    have htext : (Literal.bytes bs).render.toList
        = '0' :: 'x' :: bs.flatMap Literal.hexByte := by
      simp [Literal.render, Literal.hex]
    rw [htext, literal_of_word (List.cons_ne_nil _ _) hw hrest]
    show some (Literal.bytes (bytesOf (bs.flatMap Literal.hexByte)), rest) = _
    rw [bytesOf_hex]
  | text s =>
    have htext : (Literal.text s).render.toList ++ rest
        = '"' :: (s.toList.flatMap Text.escape ++ '"' :: rest) := by
      simp [Literal.render, Text.quoted]
    rw [htext, literal, text_append]
    rfl
  | bool b =>
    cases b
    · exact literal_of_word (w := "false".toList) (by decide) (by decide) hrest
    · exact literal_of_word (w := "true".toList) (by decide) (by decide) hrest

end Constants

/-! ## Operators -/

/-- The operator of a symbol. -/
def Operator.ofSymbol? : List Char → Option Operator
  | ['+'] => some .sum
  | ['>'] => some .gt
  | ['>', '='] => some .ge
  | ['&', '&'] => some .and
  | ['|', '|'] => some .or
  | ['=', '='] => some .eq
  | _ => none

/-- Read an operator and the space after it. -/
def Reader.operator : Reader Operator := fun s => do
  let op ← Operator.ofSymbol? (s.takeWhile (· ≠ ' '))
  return (op, (s.dropWhile (· ≠ ' ')).drop 1)

theorem Reader.operator_append (op : Operator) (rest : List Char) :
    Reader.operator (op.symbol.toList ++ ' ' :: rest) = some (op, rest) := by
  cases op <;> rfl

end PredicateScript
