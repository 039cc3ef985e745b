import PredicateScript.Proofs.EditDistance
import PredicateScript.Proofs.Suggestion
import Mathlib.Data.List.Basic

/-!
# The names on offer, in their order

The candidates that are close enough have one order, `RanksBefore`: the
closer name first, and of names equally close the one whose bytes are
smaller. An offer is the front of the list of all of them in that order
(`similarNames_exact`), and all that can be asked of an offer follows from
this: what is in it, what is left out of it, and what one more candidate
does to it.

Texts are compared character by character where the offer is made, and
byte by byte in the order it is specified by. The two come to the same
(`lt_iff_utf8Bytes_lt`). Of two characters the one with the smaller code
point has the smaller encoding, and it is smaller at a byte that both
encodings have, so nothing that follows can make up for it
(`utf8EncodeChar_append_lt`).
-/

namespace PredicateScript

/-! ## Texts in the order of their bytes -/

/-- **The bytes of a text** in UTF-8. -/
def utf8Bytes (s : String) : List UInt8 :=
  s.toUTF8.data.toList

theorem utf8Bytes_eq_flatMap (s : String) :
    utf8Bytes s = s.toList.flatMap String.utf8EncodeChar := by
  rw [utf8Bytes, String.toUTF8_eq_toByteArray, ← String.utf8Encode_toList,
    List.utf8Encode, List.data_toByteArray]

/-- A character with a smaller code point has smaller bytes, whatever
follows it and the other one. -/
theorem utf8EncodeChar_append_lt {c d : Char} (h : c < d)
    (x y : List UInt8) :
    String.utf8EncodeChar c ++ x < String.utf8EncodeChar d ++ y := by
  have hlt : c.val.toNat < d.val.toNat := h
  have hd : d.val.toNat < 0x110000 := by
    rcases d.valid with hlow | ⟨-, hhigh⟩
    · exact Nat.lt_trans hlow (by decide)
    · exact hhigh
  -- the groups of six bits are quotients of one another
  have hgroups : ∀ v : Nat, v / 4096 = v / 64 / 64
      ∧ v / 262144 = v / 64 / 64 / 64 := fun v => by omega
  simp only [String.utf8EncodeChar]
  -- one case for each pair of lengths; a longer encoding starts higher
  split_ifs <;>
    simp only [List.cons_append, List.nil_append, List.cons_lt_cons_iff,
      UInt8.lt_iff_toNat_lt, ← UInt8.toNat_inj, UInt8.toNat_ofNat',
      hgroups] <;>
    omega

theorem flatMap_utf8EncodeChar_lt {l m : List Char} (h : l < m) :
    l.flatMap String.utf8EncodeChar < m.flatMap String.utf8EncodeChar := by
  induction h with
  | @nil d m =>
    obtain ⟨b, bs, hb⟩ :=
      List.exists_cons_of_ne_nil (String.utf8EncodeChar_ne_nil (c := d))
    rw [List.flatMap_nil, List.flatMap_cons, hb]
    exact List.nil_lt_cons b _
  | rel h =>
    rw [List.flatMap_cons, List.flatMap_cons]
    exact utf8EncodeChar_append_lt h _ _
  | cons _ ih =>
    rw [List.flatMap_cons, List.flatMap_cons]
    exact List.append_left_lt ih

/-- **The order of texts is the order of their bytes.** -/
theorem lt_iff_utf8Bytes_lt {a b : String} :
    a < b ↔ utf8Bytes a < utf8Bytes b := by
  have hmono : ∀ {s t : String}, s < t → utf8Bytes s < utf8Bytes t := by
    intro s t h
    rw [utf8Bytes_eq_flatMap, utf8Bytes_eq_flatMap]
    exact flatMap_utf8EncodeChar_lt h
  refine ⟨hmono, fun h => ?_⟩
  by_contra hnot
  by_cases hgt : b < a
  · exact List.lt_asymm h (hmono hgt)
  · obtain rfl :=
      String.le_antisymm (String.not_lt.mp hgt) (String.not_lt.mp hnot)
    exact List.lt_irrefl _ h

/-! ## The order of the names on offer -/

/-- **The name `a` is offered before `b`**: it is closer to the name that
was looked for, or equally close and its bytes are smaller. -/
def RanksBefore (name a b : String) : Prop :=
  editDistance name a < editDistance name b
    ∨ editDistance name a = editDistance name b
      ∧ utf8Bytes a < utf8Bytes b

theorem RanksBefore.ne {name a b : String} (h : RanksBefore name a b) :
    a ≠ b := by
  rintro rfl
  rcases h with h | ⟨-, h⟩
  · exact Nat.lt_irrefl _ h
  · exact List.lt_irrefl _ h

theorem Ranked.compare_eq_lt_iff {r s : Ranked} :
    compare r s = .lt
      ↔ r.distance < s.distance
        ∨ r.distance = s.distance ∧ r.name < s.name := by
  show (compare r.distance s.distance).then (compare r.name s.name) = .lt ↔ _
  have hname : compare r.name s.name = .lt ↔ r.name < s.name :=
    compareOfLessAndEq_eq_lt
  rw [Ordering.then_eq_lt, Nat.compare_eq_lt, Nat.compare_eq_eq, hname]

namespace Suggestion

variable {name : String} {candidates : List String} {maxDistance : Nat}

/-- **All candidates that are close enough**, in the order they would be
offered in. -/
def ranking (name : String) (candidates : List String)
    (maxDistance : Nat) : List String :=
  (eligible name candidates maxDistance).keys.map Ranked.name

theorem mem_keys_eligible_iff {r : Ranked} :
    r ∈ (eligible name candidates maxDistance).keys
      ↔ r.name ∈ candidates ∧ Eligible name maxDistance r := by
  rw [Table.mem_keys_iff, ← find?_eligible_iff, Option.isSome_iff_exists]
  exact ⟨fun ⟨(), h⟩ => h, fun h => ⟨(), h⟩⟩

theorem mem_ranking_iff {c : String} :
    c ∈ ranking name candidates maxDistance
      ↔ c ∈ candidates ∧ 1 ≤ editDistance name c
        ∧ editDistance name c ≤ maxDistance := by
  rw [ranking, List.mem_map]
  constructor
  · rintro ⟨r, hr, rfl⟩
    obtain ⟨hmem, hdistance, hclose⟩ := mem_keys_eligible_iff.mp hr
    rw [hdistance] at hclose
    exact ⟨hmem, hclose⟩
  · rintro ⟨hmem, hclose⟩
    exact ⟨⟨editDistance name c, c⟩,
      mem_keys_eligible_iff.mpr ⟨hmem, rfl, hclose⟩, rfl⟩

theorem pairwise_ranking (name : String) (candidates : List String)
    (maxDistance : Nat) :
    (ranking name candidates maxDistance).Pairwise (RanksBefore name) := by
  have hkeys : (eligible name candidates maxDistance).keys.Pairwise
      (fun r s => compare r s = .lt) :=
    List.pairwise_map.mpr (eligible name candidates maxDistance).ordered
  refine List.pairwise_map.mpr (hkeys.imp_of_mem ?_)
  intro r s hr hs hlt
  have hr' := (mem_keys_eligible_iff.mp hr).2.1
  have hs' := (mem_keys_eligible_iff.mp hs).2.1
  rw [Ranked.compare_eq_lt_iff, hr', hs', lt_iff_utf8Bytes_lt] at hlt
  exact hlt

end Suggestion

section Offer

variable {name : String} {candidates : List String} {maxDistance : Nat}

theorem similarNames_eq_take (name : String) (candidates : List String)
    (maxDistance : Nat) :
    similarNames name candidates maxDistance
      = (Suggestion.ranking name candidates maxDistance).take 3 :=
  List.map_take

/-- What is offered is a candidate that is close enough. -/
theorem of_mem_similarNames {c : String}
    (h : c ∈ similarNames name candidates maxDistance) :
    c ∈ candidates ∧ 1 ≤ editDistance name c
      ∧ editDistance name c ≤ maxDistance := by
  rw [similarNames_eq_take] at h
  exact Suggestion.mem_ranking_iff.mp (List.mem_of_mem_take h)

/-- **What is left out ranks behind what is offered.** -/
theorem ranksBefore_of_notMem {c r : String} (hc : c ∈ candidates)
    (hclose : 1 ≤ editDistance name c ∧ editDistance name c ≤ maxDistance)
    (hout : c ∉ similarNames name candidates maxDistance)
    (hr : r ∈ similarNames name candidates maxDistance) :
    RanksBefore name r c := by
  rw [similarNames_eq_take] at hout hr
  have hmem : c ∈ Suggestion.ranking name candidates maxDistance :=
    Suggestion.mem_ranking_iff.mpr ⟨hc, hclose⟩
  have hsorted := Suggestion.pairwise_ranking name candidates maxDistance
  rw [← List.take_append_drop 3 (Suggestion.ranking name candidates
    maxDistance)] at hmem hsorted
  have hdrop := (List.mem_append.mp hmem).resolve_left hout
  exact (List.pairwise_append.mp hsorted).2.2 r hr c hdrop

/-! ## One more candidate -/

/-- Inserting a key that is there changes no key; one that is not there
comes between those before it and those after it. -/
theorem Table.keys_insert {κ υ : Type} [Ord κ] [Std.TransOrd κ]
    [Std.LawfulEqOrd κ] (t : Table κ υ) (k : κ) (v : υ) :
    (t.insert k v).keys = t.keys
      ∨ ∃ before after, t.keys = before ++ after
        ∧ (t.insert k v).keys = before ++ k :: after := by
  obtain ⟨entries, hentries⟩ := t
  show (insertEntry k v entries).map Prod.fst = entries.map Prod.fst
    ∨ ∃ before after, entries.map Prod.fst = before ++ after
      ∧ (insertEntry k v entries).map Prod.fst = before ++ k :: after
  clear hentries
  induction entries with
  | nil => exact .inr ⟨[], [], rfl, rfl⟩
  | cons e rest ih =>
    obtain ⟨k', v'⟩ := e
    unfold insertEntry
    split
    · exact .inr ⟨[], k' :: rest.map Prod.fst, rfl, rfl⟩
    · next heq =>
      obtain rfl := Std.LawfulEqCmp.eq_of_compare heq
      exact .inl rfl
    · rcases ih with hsame | ⟨before, after, hold, hnew⟩
      · exact .inl (by rw [List.map_cons, List.map_cons, hsame])
      · refine .inr ⟨k' :: before, after, ?_, ?_⟩
        · rw [List.map_cons, hold, List.cons_append]
        · rw [List.map_cons, hnew, List.cons_append]

/-- One more candidate is considered after the others, wherever it is
listed. -/
theorem Suggestion.eligible_cons (name c : String) (candidates : List String)
    (maxDistance : Nat) :
    eligible name (c :: candidates) maxDistance
      = consider name maxDistance (eligible name candidates maxDistance)
        c := by
  refine Table.ext_find? (fun r => Option.ext (fun _ => ?_))
  rw [find?_eligible_iff, find?_consider_iff, find?_eligible_iff,
    List.mem_cons, ← or_and_right, or_comm]

/-- **One more candidate** is ranked between those before it and those
after it, if it is ranked and was not yet. -/
theorem Suggestion.ranking_cons (name c : String) (candidates : List String)
    (maxDistance : Nat) :
    ranking name (c :: candidates) maxDistance
        = ranking name candidates maxDistance
      ∨ ∃ before after,
        ranking name candidates maxDistance = before ++ after
          ∧ ranking name (c :: candidates) maxDistance
            = before ++ c :: after := by
  unfold ranking
  rw [eligible_cons, consider]
  split
  · rcases (eligible name candidates maxDistance).keys_insert
      ⟨editDistance name c, c⟩ () with hsame | ⟨before, after, hold, hnew⟩
    · exact .inl (by rw [hsame])
    · refine .inr ⟨before.map Ranked.name, after.map Ranked.name, ?_, ?_⟩
      · rw [hold, List.map_append]
      · rw [hnew, List.map_append, List.map_cons]
  · exact .inl rfl

/-- The front of a list with one more element is the front it had with the
element in it, cut off at the same length. -/
theorem take_insert {α : Type} (n : Nat) (before after : List α) (x : α) :
    (before ++ x :: after).take n
      = (before.take n ++ x :: after.take (n - before.length)).take n := by
  by_cases h : n ≤ before.length
  · have hfront : n ≤ (before.take n).length := by
      rw [List.length_take_of_le h]
    rw [List.take_append_of_le_length h,
      List.take_append_of_le_length hfront, List.take_take, Nat.min_self]
  · obtain ⟨m, rfl⟩ : ∃ m, n = before.length + (m + 1) :=
      ⟨n - before.length - 1, by omega⟩
    rw [List.take_of_length_le (by omega : before.length ≤ _),
      List.take_length_add_append, List.take_length_add_append,
      Nat.add_sub_cancel_left, List.take_succ_cons, List.take_succ_cons,
      List.take_take, Nat.min_eq_left (Nat.le_succ m)]

/-- **One more candidate** is put into the offer, and the last name gives
way to it where there are too many. -/
theorem similarNames_cons (name c : String) (candidates : List String)
    (maxDistance : Nat) :
    similarNames name (c :: candidates) maxDistance
        = similarNames name candidates maxDistance
      ∨ ∃ before after,
        similarNames name candidates maxDistance = before ++ after
          ∧ similarNames name (c :: candidates) maxDistance
            = (before ++ c :: after).take 3 := by
  rw [similarNames_eq_take, similarNames_eq_take]
  rcases Suggestion.ranking_cons name c candidates maxDistance with
    hsame | ⟨before, after, hold, hnew⟩
  · exact .inl (by rw [hsame])
  · refine .inr ⟨before.take 3, after.take (3 - before.length), ?_, ?_⟩
    · rw [hold, List.take_append]
    · rw [hnew, take_insert]

end Offer

/-- **The ranking is exact.** The candidates that are between one and
`maxDistance` edits away, each once and strictly in their order, make a
list, and the offer is its first three. So an offer names nothing twice,
never the name itself, and nothing where no edit is allowed; it is the same
for every list of the same candidates; what is left out of it ranks behind
all that is in it; and one more candidate is put into it at the most, at
the cost of the last name. -/
theorem similarNames_exact (name : String) (candidates : List String)
    (maxDistance : Nat) :
    (∃ ranking : List String,
      ranking.Pairwise (RanksBefore name)
        ∧ (∀ c, c ∈ ranking ↔ c ∈ candidates ∧ 1 ≤ editDistance name c
          ∧ editDistance name c ≤ maxDistance)
        ∧ similarNames name candidates maxDistance = ranking.take 3)
      ∧ (similarNames name candidates maxDistance).Nodup
      ∧ name ∉ similarNames name candidates maxDistance
      ∧ similarNames name candidates 0 = []
      ∧ (∀ candidates', (∀ c, c ∈ candidates' ↔ c ∈ candidates) →
        similarNames name candidates' maxDistance
          = similarNames name candidates maxDistance)
      ∧ (∀ c ∈ candidates, 1 ≤ editDistance name c →
        editDistance name c ≤ maxDistance →
        c ∉ similarNames name candidates maxDistance →
        ∀ r ∈ similarNames name candidates maxDistance,
          RanksBefore name r c)
      ∧ ∀ c, similarNames name (c :: candidates) maxDistance
          = similarNames name candidates maxDistance
        ∨ ∃ before after,
          similarNames name candidates maxDistance = before ++ after
            ∧ similarNames name (c :: candidates) maxDistance
              = (before ++ c :: after).take 3 := by
  have hsorted := Suggestion.pairwise_ranking name candidates maxDistance
  refine ⟨⟨Suggestion.ranking name candidates maxDistance, hsorted,
      fun _ => Suggestion.mem_ranking_iff,
      similarNames_eq_take name candidates maxDistance⟩,
    ?nodup, ?self, ?none, ?same, ?left, ?more⟩
  case nodup =>
    rw [similarNames_eq_take]
    exact ((hsorted.imp RanksBefore.ne).sublist (List.take_sublist _ _))
  case self =>
    intro h
    have hpos := (of_mem_similarNames h).2.1
    rw [editDistance_eq_zero_iff.mpr rfl] at hpos
    exact Nat.not_succ_le_zero 0 hpos
  case none =>
    refine List.eq_nil_iff_forall_not_mem.mpr (fun c hc => ?_)
    obtain ⟨-, hpos, hzero⟩ := of_mem_similarNames hc
    exact absurd (hpos.trans hzero) (by decide)
  case same =>
    intro candidates' h
    exact similarNames_congr h name maxDistance
  case left =>
    intro c hc hpos hle hout r hr
    exact ranksBefore_of_notMem hc ⟨hpos, hle⟩ hout hr
  case more =>
    intro c
    exact similarNames_cons name c candidates maxDistance

/-- The names in reach of `fe`, listed in another order and with one of
them twice. -/
theorem similarNames_exact_fe :
    (∀ c, c ∈ ["fees", "fee", "feed", "fee"] ↔ c ∈ ["feed", "fee", "fees"])
      ∧ similarNames "fe" ["fees", "fee", "feed", "fee"] 2
        = similarNames "fe" ["feed", "fee", "fees"] 2 := by
  have h : ∀ c, c ∈ ["fees", "fee", "feed", "fee"]
      ↔ c ∈ ["feed", "fee", "fees"] := by
    intro c
    simp only [List.mem_cons, List.not_mem_nil]
    tauto
  exact ⟨h, (similarNames_exact "fe" ["feed", "fee", "fees"]
    2).2.2.2.2.1 _ h⟩

example : similarNames "fe" ["fees", "fee", "feed", "fee", "feet", "fe"] 2
    = ["fee", "feed", "fees"] := rfl

end PredicateScript
