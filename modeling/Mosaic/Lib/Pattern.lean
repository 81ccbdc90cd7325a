/-
Regular expressions that are a sequence of counted character classes, as
`[a-z][a-z0-9]{0,31}-[0-9a-f]{32}`, with the backtracking match of a
Python `re`.

`splits` lists the ways to cut a text along the sequence, in the order in
which a greedy matcher tries them, so `fullmatch` is the first.
`mem_splits` says which cuts there are, and with it the order drops out
of a proof wherever there is one cut only (`fullmatch_eq_some_of`).
-/
import Mathlib

namespace Mosaic.Lib.Pattern

/-- `[class]{least,most}`; without a `most` it is `{least,}`. -/
structure Item where
  accepts : Char → Bool
  least : Nat
  most : Option Nat

/-- A text an item matches. -/
structure Item.Fits (i : Item) (t : List Char) : Prop where
  least : i.least ≤ t.length
  most : ∀ m, i.most = some m → t.length ≤ m
  accepts : ∀ c ∈ t, i.accepts c = true

/-- How many characters an item can take from the front. -/
def Item.longest (i : Item) (s : List Char) : Nat :=
  match i.most with
  | some m => min m (s.takeWhile i.accepts).length
  | none => (s.takeWhile i.accepts).length

/-- The lengths an item tries, longest first. -/
def Item.lengths (i : Item) (s : List Char) : List Nat :=
  ((List.range (i.longest s + 1)).filter (i.least ≤ ·)).reverse

/-- The cuts of a text along a sequence, in the order they are tried. -/
def splits : List Item → List Char → List (List (List Char))
  | [], [] => [[]]
  | [], _ :: _ => []
  | i :: is, s => (i.lengths s).flatMap fun n => (splits is (s.drop n)).map (s.take n :: ·)

/-- `Pattern.fullmatch`, with what each item of the sequence took. -/
def fullmatch (is : List Item) (s : List Char) : Option (List (List Char)) :=
  (splits is s).head?

-- ================================================================ cuts

theorem Item.mem_lengths {i : Item} {s : List Char} {n : Nat} (hn : n ≤ s.length) :
    n ∈ i.lengths s ↔ i.Fits (s.take n) := by
  have hlength : (s.take n).length = n := by
    rw [List.length_take]
    omega
  have hwhile : n ≤ (s.takeWhile i.accepts).length
      ↔ ∀ c ∈ s.take n, i.accepts c = true := by
    constructor
    · intro hle c hc
      have htake : s.take n = (s.takeWhile i.accepts).take n := by
        rw [List.prefix_iff_eq_take.mp (List.takeWhile_prefix i.accepts), List.take_take]
        congr 1
        omega
      rw [htake] at hc
      exact List.all_eq_true.mp List.all_takeWhile c (List.mem_of_mem_take hc)
    · intro hall
      have hself : s.takeWhile i.accepts
          = s.take n ++ (s.drop n).takeWhile i.accepts := by
        conv_lhs => rw [← List.take_append_drop n s]
        exact List.takeWhile_append_of_pos hall
      rw [hself, List.length_append, hlength]
      omega
  unfold Item.lengths Item.longest
  simp only [List.mem_reverse, List.mem_filter, List.mem_range, decide_eq_true_eq]
  constructor
  · rintro ⟨hlong, hleast⟩
    cases hmost : i.most with
    | none =>
        rw [hmost] at hlong
        refine ⟨by omega, fun m hm => ?_, hwhile.mp (by dsimp only at hlong; omega)⟩
        rw [hmost] at hm
        cases hm
    | some m =>
        rw [hmost] at hlong
        dsimp only at hlong
        refine ⟨by omega, fun m' hm => ?_, hwhile.mp (by omega)⟩
        rw [hmost] at hm
        obtain rfl := Option.some.inj hm
        omega
  · intro hfits
    have hle := hwhile.mpr hfits.accepts
    have hleast := hfits.least
    refine ⟨?_, by omega⟩
    cases hmost : i.most with
    | none =>
        dsimp only
        omega
    | some m =>
        have hm := hfits.most m hmost
        dsimp only
        omega

theorem Item.le_length_of_mem {i : Item} {s : List Char} {n : Nat}
    (h : n ∈ i.lengths s) : n ≤ s.length := by
  have hwhile : (s.takeWhile i.accepts).length ≤ s.length :=
    (List.takeWhile_prefix i.accepts).length_le
  simp only [Item.lengths, Item.longest, List.mem_reverse, List.mem_filter,
    List.mem_range] at h
  cases hmost : i.most with
  | none =>
      rw [hmost] at h
      dsimp only at h
      omega
  | some m =>
      rw [hmost] at h
      dsimp only at h
      omega

/-- The cuts are the ways to write the text as one part for each item. -/
theorem mem_splits {is : List Item} {s : List Char} {parts : List (List Char)} :
    parts ∈ splits is s ↔ parts.flatten = s ∧ List.Forall₂ Item.Fits is parts := by
  induction is generalizing s parts with
  | nil =>
      cases s with
      | nil =>
          rw [splits, List.mem_singleton]
          constructor
          · rintro rfl
            exact ⟨rfl, List.Forall₂.nil⟩
          · rintro ⟨-, hall⟩
            cases hall
            rfl
      | cons c s =>
          rw [splits]
          refine ⟨fun h => (List.not_mem_nil h).elim, ?_⟩
          rintro ⟨hflat, hall⟩
          cases hall
          cases hflat
  | cons i is ih =>
      simp only [splits, List.mem_flatMap, List.mem_map]
      constructor
      · rintro ⟨n, hn, rest, hrest, rfl⟩
        obtain ⟨hflat, hall⟩ := ih.mp hrest
        refine ⟨?_, List.Forall₂.cons
          ((Item.mem_lengths (Item.le_length_of_mem hn)).mp hn) hall⟩
        rw [List.flatten_cons, hflat, List.take_append_drop]
      · rintro ⟨rfl, hall⟩
        cases hall with
        | cons hfits hall =>
            next t rest =>
              have htake : (t ++ rest.flatten).take t.length = t := List.take_left
              have hdrop : (t ++ rest.flatten).drop t.length = rest.flatten := List.drop_left
              refine ⟨t.length, (Item.mem_lengths ?_).mpr ?_, rest, ?_, ?_⟩
              · simp
              · rw [List.flatten_cons, htake]
                exact hfits
              · rw [List.flatten_cons, hdrop]
                exact ih.mpr ⟨rfl, hall⟩
              · rw [List.flatten_cons, htake]

-- =============================================================== matches

/-- What a match took fits the items and makes up the text. -/
theorem fullmatch_sound {is : List Item} {s : List Char} {parts : List (List Char)}
    (h : fullmatch is s = some parts) :
    parts.flatten = s ∧ List.Forall₂ Item.Fits is parts :=
  mem_splits.mp (List.mem_of_mem_head? h)

/-- A text with a cut matches. -/
theorem fullmatch_isSome {is : List Item} {parts : List (List Char)}
    (h : List.Forall₂ Item.Fits is parts) : ∃ took, fullmatch is parts.flatten = some took := by
  have hmem : parts ∈ splits is parts.flatten := mem_splits.mpr ⟨rfl, h⟩
  unfold fullmatch
  cases hs : splits is parts.flatten with
  | nil =>
      rw [hs] at hmem
      exact (List.not_mem_nil hmem).elim
  | cons took _ => exact ⟨took, rfl⟩

/-- With one cut only, that is the match. -/
theorem fullmatch_eq_some_of {is : List Item} {parts : List (List Char)}
    (h : List.Forall₂ Item.Fits is parts)
    (honly : ∀ took, took.flatten = parts.flatten → List.Forall₂ Item.Fits is took →
      took = parts) : fullmatch is parts.flatten = some parts := by
  obtain ⟨took, htook⟩ := fullmatch_isSome h
  obtain ⟨hflat, hall⟩ := fullmatch_sound htook
  rw [htook, honly took hflat hall]

end Mosaic.Lib.Pattern
