/-
Relational tables with allocated primary keys: the storage layer every
store in this development sits on.

# The representation

A table is the list of its rows in insertion order, and a row's primary
key is its position. Inserting allocates the next key, so a key is
fresh by construction and a handle stays valid forever: nothing here
deletes a row (the foreign keys that point at the modelled tables are
all `ON DELETE RESTRICT`). Lookups are by key (`get`) or by the first
row that satisfies a predicate (`find`); writes replace one row
(`modify`). A query with an ordering and a limit is `ordered`.

# The two kinds of lemma

- pointwise: what `get` sees after an insert or a modify, the frame
  lemmas (`get_modify_ne`) included;
- aggregate: what a sum over the rows sees (`total_insert`,
  `total_modify`), for conservation laws.
-/
import Mathlib

namespace Mosaic.Lib

/-- A table: rows in insertion order, keyed by position. -/
structure Table (ρ : Type) where
  rows : List ρ
deriving Repr, DecidableEq

namespace Table

variable {ρ : Type}

/-- The table without rows. -/
def empty : Table ρ := ⟨[]⟩

/-- The key the next insert allocates. -/
def nextId (t : Table ρ) : Nat := t.rows.length

/-- Lookup by primary key. -/
def get (t : Table ρ) (i : Nat) : Option ρ := t.rows[i]?

/-- Append a row under the next key. -/
def insert (t : Table ρ) (r : ρ) : Table ρ := ⟨t.rows ++ [r]⟩

/-- Rewrite the row at `i`, if there is one. -/
def modify (t : Table ρ) (i : Nat) (f : ρ → ρ) : Table ρ := ⟨t.rows.modify i f⟩

/-- Rewrite every row: an `UPDATE` whose `WHERE` is in `f`. -/
def update (t : Table ρ) (f : ρ → ρ) : Table ρ := ⟨t.rows.map f⟩

/-- Every row with its key, in insertion order. -/
def entries (t : Table ρ) : List (Nat × ρ) :=
  t.rows.zipIdx.map fun x => (x.2, x.1)

/-- The first row that satisfies `p`, with its key. -/
def find (t : Table ρ) (p : ρ → Bool) : Option (Nat × ρ) :=
  t.entries.find? fun e => p e.2

/-- The rows that satisfy `p`, sorted by `le`: `ORDER BY` over a `WHERE`. -/
def ordered (t : Table ρ) (le : Nat × ρ → Nat × ρ → Bool)
    (p : Nat × ρ → Bool) : List (Nat × ρ) :=
  (t.entries.filter p).insertionSort fun a b => le a b = true

/-- The sum of `f` over the rows. -/
def total (t : Table ρ) (f : ρ → Int) : Int := (t.rows.map f).sum

-- ======================================================== pointwise view

@[simp] theorem get_empty (i : Nat) : (empty : Table ρ).get i = none := rfl

@[simp] theorem rows_insert (t : Table ρ) (r : ρ) :
    (t.insert r).rows = t.rows ++ [r] := rfl

/-- Inserting rows one after the other appends them. -/
@[simp] theorem rows_foldl_insert (t : Table ρ) (rs : List ρ) :
    (rs.foldl insert t).rows = t.rows ++ rs := by
  induction rs generalizing t with
  | nil => simp
  | cons r rs ih => simp [ih]

@[simp] theorem nextId_insert (t : Table ρ) (r : ρ) :
    (t.insert r).nextId = t.nextId + 1 := by
  simp [nextId]

@[simp] theorem nextId_modify (t : Table ρ) (i : Nat) (f : ρ → ρ) :
    (t.modify i f).nextId = t.nextId := by
  simp [nextId, modify]

/-- A present key was allocated. -/
theorem lt_nextId {t : Table ρ} {i : Nat} {r : ρ} (h : t.get i = some r) :
    i < t.nextId :=
  (List.getElem?_eq_some_iff.mp h).1

/-- The next key is fresh. -/
@[simp] theorem get_nextId (t : Table ρ) : t.get t.nextId = none := by
  simp [get, nextId]

theorem get_insert (t : Table ρ) (r : ρ) (i : Nat) :
    (t.insert r).get i = if i = t.nextId then some r else t.get i := by
  unfold get nextId
  rw [rows_insert, List.getElem?_append]
  by_cases hlt : i < t.rows.length
  · rw [if_pos hlt, if_neg (by omega)]
  · rw [if_neg hlt]
    by_cases he : i = t.rows.length
    · simp [he]
    · rw [if_neg he, List.getElem?_eq_none (by simp; omega),
        List.getElem?_eq_none (by omega)]

@[simp] theorem get_insert_self (t : Table ρ) (r : ρ) :
    (t.insert r).get t.nextId = some r := by
  rw [get_insert, if_pos rfl]

/-- An old row survives an insert. -/
theorem get_insert_of_some {t : Table ρ} {i : Nat} {r : ρ}
    (h : t.get i = some r) (r' : ρ) : (t.insert r').get i = some r := by
  have := lt_nextId h
  rw [get_insert, if_neg (by omega), h]

/-- A row read after an insert is the new one or an old one. -/
theorem get_insert_cases {t : Table ρ} {r r' : ρ} {i : Nat}
    (h : (t.insert r).get i = some r') :
    (i = t.nextId ∧ r' = r) ∨ t.get i = some r' := by
  rw [get_insert] at h
  split at h
  · next he => exact Or.inl ⟨he, (Option.some.inj h).symm⟩
  · exact Or.inr h

/-- Rewriting the row that was just appended. -/
theorem modify_insert_self (t : Table ρ) (r : ρ) (f : ρ → ρ) :
    (t.insert r).modify t.nextId f = t.insert (f r) := by
  simp [modify, insert, nextId, List.modify_eq_take_drop]

theorem get_modify (t : Table ρ) (i j : Nat) (f : ρ → ρ) :
    (t.modify i f).get j = if i = j then (t.get j).map f else t.get j := by
  unfold get modify
  rw [List.getElem?_modify]
  by_cases he : i = j
  · simp [he]
  · simp [he]

@[simp] theorem get_modify_self (t : Table ρ) (i : Nat) (f : ρ → ρ) :
    (t.modify i f).get i = (t.get i).map f := by
  rw [get_modify, if_pos rfl]

/-- The frame rule of `modify`: other rows are untouched. -/
theorem get_modify_ne (t : Table ρ) {i j : Nat} (h : i ≠ j) (f : ρ → ρ) :
    (t.modify i f).get j = t.get j := by
  rw [get_modify, if_neg h]

/-- A row read after a modify is the rewritten one or an old one. -/
theorem get_modify_cases {t : Table ρ} {i j : Nat} {f : ρ → ρ} {r' : ρ}
    (h : (t.modify i f).get j = some r') :
    (j = i ∧ ∃ r, t.get i = some r ∧ r' = f r)
      ∨ (j ≠ i ∧ t.get j = some r') := by
  by_cases he : i = j
  · subst he
    rw [get_modify_self] at h
    obtain ⟨r, hr, rfl⟩ := Option.map_eq_some_iff.mp h
    exact Or.inl ⟨rfl, r, hr, rfl⟩
  · rw [get_modify_ne t he] at h
    exact Or.inr ⟨fun h => he h.symm, h⟩

/-- A modify keeps every key present. -/
theorem get_modify_of_some {t : Table ρ} {i : Nat} {r : ρ}
    (h : t.get i = some r) (j : Nat) (f : ρ → ρ) :
    ∃ r', (t.modify j f).get i = some r' := by
  rw [get_modify]
  split
  · exact ⟨f r, by rw [h]; rfl⟩
  · exact ⟨r, h⟩

@[simp] theorem get_update (t : Table ρ) (f : ρ → ρ) (i : Nat) :
    (t.update f).get i = (t.get i).map f := by
  simp [get, update]

theorem mem_rows_of_get {t : Table ρ} {i : Nat} {r : ρ}
    (h : t.get i = some r) : r ∈ t.rows :=
  List.mem_of_getElem? h

theorem get_of_mem_rows {t : Table ρ} {r : ρ} (h : r ∈ t.rows) :
    ∃ i, t.get i = some r :=
  List.getElem?_of_mem h

-- ============================================================= replaced

/-- `t'` is `t` with the row `r` at `i` replaced by `r'`. -/
structure Replaced (t t' : Table ρ) (i : Nat) (r r' : ρ) : Prop where
  old : t.get i = some r
  get_eq : ∀ j, t'.get j = if j = i then some r' else t.get j
  size : t'.nextId = t.nextId

theorem replaced_modify {t : Table ρ} {i : Nat} {r : ρ} (h : t.get i = some r)
    (f : ρ → ρ) : Replaced t (t.modify i f) i r (f r) := by
  refine ⟨h, fun j => ?_, nextId_modify t i f⟩
  rw [get_modify]
  by_cases he : i = j
  · subst he
    simp [h]
  · rw [if_neg he, if_neg fun h => he h.symm]

namespace Replaced

variable {t t' : Table ρ} {i j : Nat} {r r' x : ρ}

theorem new (h : Replaced t t' i r r') : t'.get i = some r' := by
  rw [h.get_eq, if_pos rfl]

/-- Other rows are untouched. -/
theorem other (h : Replaced t t' i r r') (hj : j ≠ i) : t'.get j = t.get j := by
  rw [h.get_eq, if_neg hj]

/-- A row read afterwards is the new one or an untouched one. -/
theorem cases (h : Replaced t t' i r r') (hx : t'.get j = some x) :
    (j = i ∧ x = r') ∨ (j ≠ i ∧ t.get j = some x) := by
  by_cases he : j = i
  · subst he
    rw [h.new] at hx
    exact Or.inl ⟨rfl, (Option.some.inj hx).symm⟩
  · rw [h.other he] at hx
    exact Or.inr ⟨he, hx⟩

/-- Rewriting the replaced row once more. -/
theorem modify (h : Replaced t t' i r r') (f : ρ → ρ) :
    Replaced t (t'.modify i f) i r (f r') := by
  refine ⟨h.old, fun j => ?_, (nextId_modify t' i f).trans h.size⟩
  rw [get_modify, h.get_eq]
  by_cases he : i = j
  · simp [he]
  · have hj : j ≠ i := fun h => he h.symm
    rw [if_neg he, if_neg hj, if_neg hj]

end Replaced

-- ============================================================== queries

theorem mem_entries {t : Table ρ} {e : Nat × ρ} :
    e ∈ t.entries ↔ t.get e.1 = some e.2 := by
  obtain ⟨i, r⟩ := e
  simp only [entries, List.mem_map, Prod.mk.injEq, Prod.exists]
  constructor
  · rintro ⟨a, b, hmem, rfl, rfl⟩
    simpa [get] using List.mk_mem_zipIdx_iff_getElem?.mp hmem
  · intro h
    exact ⟨r, i, List.mk_mem_zipIdx_iff_getElem?.mpr h, rfl, rfl⟩

theorem entries_insert (t : Table ρ) (r : ρ) :
    (t.insert r).entries = t.entries ++ [(t.nextId, r)] := by
  simp [entries, insert, nextId, List.zipIdx_append]

/-- The values of the listed rows. -/
theorem entries_map_snd (t : Table ρ) : t.entries.map (·.2) = t.rows := by
  rw [entries, List.map_map]
  have hvalues : t.rows.zipIdx.map ((·.2) ∘ fun x => (x.2, x.1))
      = t.rows.zipIdx.map Prod.fst := rfl
  rw [hvalues, List.zipIdx_map_fst]

/-- A query that cannot tell the new row from the old one returns the
same. -/
theorem Replaced.query_eq {β : Type} {t t' : Table ρ} {i : Nat} {r r' : ρ}
    (h : Replaced t t' i r r') {p : ρ → Bool} {f : ρ → β} (hp : p r' = p r)
    (hf : f r' = f r) :
    (t'.entries.filter fun e => p e.2).map (fun e => (e.1, f e.2))
      = (t.entries.filter fun e => p e.2).map fun e => (e.1, f e.2) := by
  have hquery : ∀ u : Table ρ,
      (u.entries.filter fun e => p e.2).map (fun e => (e.1, f e.2))
        = ((u.rows.map fun r => (p r, f r)).zipIdx.filter fun x => x.1.1).map
            fun x => (x.2, x.1.2) := by
    intro u
    simp [entries, List.zipIdx_map, List.filter_map, Function.comp_def]
  have hrows : (t'.rows.map fun r => (p r, f r)) = t.rows.map fun r => (p r, f r) := by
    refine List.ext_getElem? fun j => ?_
    have hj : t'.rows[j]? = if j = i then some r' else t.rows[j]? := h.get_eq j
    have hi : t.rows[i]? = some r := h.old
    rw [List.getElem?_map, List.getElem?_map, hj]
    by_cases he : j = i
    · simp [he, hi, hp, hf]
    · rw [if_neg he]
  rw [hquery, hquery, hrows]

/-- A key is listed once. -/
theorem nodup_entries (t : Table ρ) : (t.entries.map (·.1)).Nodup := by
  rw [entries, List.map_map]
  have hkeys : t.rows.zipIdx.map ((·.1) ∘ fun x => (x.2, x.1))
      = t.rows.zipIdx.map Prod.snd := rfl
  rw [hkeys, List.zipIdx_map_snd]
  exact List.nodup_range'

/-- What a `find` returns is a row of the table that satisfies the
predicate. -/
theorem find_some {t : Table ρ} {p : ρ → Bool} {e : Nat × ρ}
    (h : t.find p = some e) : t.get e.1 = some e.2 ∧ p e.2 = true := by
  have hp := List.find?_some (p := fun e : Nat × ρ => p e.2) h
  exact ⟨mem_entries.mp (List.mem_of_find?_eq_some h), hp⟩

/-- A `find` that comes back empty refutes every row. -/
theorem find_none {t : Table ρ} {p : ρ → Bool} (h : t.find p = none)
    {i : Nat} {r : ρ} (hr : t.get i = some r) : p r = false := by
  have := List.find?_eq_none.mp h (i, r) (mem_entries.mpr hr)
  simpa using this

/-- What an ordered query returns are rows of the table that satisfy its
predicate. -/
theorem mem_ordered {t : Table ρ} {le : Nat × ρ → Nat × ρ → Bool}
    {p : Nat × ρ → Bool} {e : Nat × ρ} :
    e ∈ t.ordered le p ↔ t.get e.1 = some e.2 ∧ p e = true := by
  unfold ordered
  rw [List.mem_insertionSort, List.mem_filter, mem_entries]

/-- Rows that already stand in order are returned as they stand. -/
theorem ordered_eq {t : Table ρ} {le : Nat × ρ → Nat × ρ → Bool}
    {p : Nat × ρ → Bool} (h : (t.entries.filter p).Pairwise fun a b => le a b = true) :
    t.ordered le p = t.entries.filter p :=
  h.insertionSort_eq

/-- The rows of an ordered query stand in order. -/
theorem pairwise_ordered {t : Table ρ} {le : Nat × ρ → Nat × ρ → Bool}
    {p : Nat × ρ → Bool} (htotal : ∀ a b, le a b = true ∨ le b a = true)
    (htrans : ∀ a b c, le a b = true → le b c = true → le a c = true) :
    (t.ordered le p).Pairwise fun a b => le a b = true :=
  have : Std.Total fun a b => le a b = true := ⟨htotal⟩
  have : IsTrans _ fun a b => le a b = true := ⟨htrans⟩
  List.pairwise_insertionSort _ _

/-- Another order lists the same rows. -/
theorem perm_ordered {t : Table ρ} {le le' : Nat × ρ → Nat × ρ → Bool}
    {p : Nat × ρ → Bool} : (t.ordered le p).Perm (t.ordered le' p) :=
  (List.perm_insertionSort _ _).trans (List.perm_insertionSort _ _).symm

/-- What a search finds stands before whatever else it could have found. -/
theorem find?_before {R : ρ → ρ → Prop} {p : ρ → Bool} {l : List ρ} {x y : ρ}
    (hl : l.Pairwise R) (h : l.find? p = some x) (hy : y ∈ l) (hp : p y = true) :
    x = y ∨ R x y := by
  obtain ⟨-, before, rest, rfl, hbefore⟩ := List.find?_eq_some_iff_append.mp h
  rcases List.mem_append.mp hy with hy | hy
  · have := hbefore y hy
    rw [hp] at this
    cases this
  · rcases List.mem_cons.mp hy with rfl | hy
    · exact Or.inl rfl
    · exact Or.inr ((List.pairwise_cons.mp (List.pairwise_append.mp hl).2.1).1 y hy)

/-- Insertion is stable: of the elements that come first, the head is the one
that stood first. -/
theorem insertionSort_head_first {r : Nat × ρ → Nat × ρ → Prop} [DecidableRel r]
    (htotal : ∀ a b, r a b ∨ r b a) (htrans : ∀ a b c, r a b → r b c → r a c)
    {l : List (Nat × ρ)} (hl : l.Pairwise fun a b => a.1 < b.1) {e : Nat × ρ}
    (h : (l.insertionSort r).head? = some e) :
    ∀ e' ∈ l, r e e' ∧ (r e' e → e.1 ≤ e'.1) := by
  induction l generalizing e with
  | nil => cases h
  | cons a l ih =>
      obtain ⟨hfirst, hl⟩ := List.pairwise_cons.mp hl
      rw [List.insertionSort_cons] at h
      have hself : ∀ x, r x x := fun x => (htotal x x).elim id id
      cases hsorted : l.insertionSort r with
      | nil =>
          have hlen := List.length_insertionSort r l
          rw [hsorted] at h hlen
          obtain rfl := List.length_eq_zero_iff.mp hlen.symm
          obtain rfl := Option.some.inj h
          intro e' he'
          obtain rfl := List.mem_singleton.mp he'
          exact ⟨hself e', fun _ => le_refl _⟩
      | cons b bs =>
          have hrest := ih hl (by rw [hsorted]; rfl : (l.insertionSort r).head? = some b)
          rw [hsorted, List.orderedInsert_cons] at h
          intro e' he'
          by_cases hab : r a b
          · rw [if_pos hab] at h
            obtain rfl := Option.some.inj h
            rcases List.mem_cons.mp he' with rfl | he'
            · exact ⟨hself e', fun _ => le_refl _⟩
            · exact ⟨htrans _ _ _ hab (hrest e' he').1, fun _ => (hfirst e' he').le⟩
          · rw [if_neg hab] at h
            obtain rfl := Option.some.inj h
            rcases List.mem_cons.mp he' with rfl | he'
            · exact ⟨(htotal _ _).resolve_left hab, fun h => absurd h hab⟩
            · exact hrest e' he'

theorem pairwise_entries (t : Table ρ) : t.entries.Pairwise fun a b => a.1 < b.1 := by
  have hkeys : (t.entries.map (·.1)).Pairwise (· < ·) := by
    rw [entries, List.map_map]
    have hsnd : t.rows.zipIdx.map ((·.1) ∘ fun x => (x.2, x.1))
        = t.rows.zipIdx.map Prod.snd := rfl
    rw [hsnd, List.zipIdx_map_snd]
    exact List.pairwise_lt_range'
  exact List.pairwise_map.mp hkeys

/-- What a `find` returns is the first row that satisfies the predicate. -/
theorem find_eq_some_iff {t : Table ρ} {p : ρ → Bool} {i : Nat} {r : ρ} :
    t.find p = some (i, r)
      ↔ t.get i = some r ∧ p r = true
        ∧ ∀ j x, j < i → t.get j = some x → p x = false := by
  have hfirst : ∀ {i r}, t.find p = some (i, r) →
      ∀ j x, j < i → t.get j = some x → p x = false := by
    intro i r h j x hj hx
    obtain ⟨-, as, bs, hsplit, has⟩ := List.find?_eq_some_iff_append.mp h
    have hmem : (j, x) ∈ t.entries := mem_entries.mpr hx
    have hsorted := t.pairwise_entries
    rw [hsplit] at hmem hsorted
    rcases List.mem_append.mp hmem with hmem | hmem
    · simpa using has _ hmem
    · -- the rows from the found one on have keys that are not below it
      have hge := (List.pairwise_append.mp hsorted).2.1
      rw [List.pairwise_cons] at hge
      rcases List.mem_cons.mp hmem with he | hmem
      · cases he
        omega
      · have := hge.1 _ hmem
        simp only at this
        omega
  constructor
  · intro h
    obtain ⟨hget, hp⟩ := find_some h
    exact ⟨hget, hp, hfirst h⟩
  · rintro ⟨hget, hp, hbefore⟩
    cases hfind : t.find p with
    | none =>
        rw [find_none hfind hget] at hp
        cases hp
    | some e =>
        obtain ⟨k, y⟩ := e
        obtain ⟨hk, hpy⟩ := find_some hfind
        rcases Nat.lt_trichotomy k i with hlt | rfl | hlt
        · rw [hbefore k y hlt hk] at hpy
          cases hpy
        · obtain rfl := Option.some.inj (hget.symm.trans hk)
          rfl
        · rw [hfirst hfind i r hlt hget] at hp
          cases hp

/-- A row found is still the one found after an insert. -/
theorem find_insert {t : Table ρ} {p : ρ → Bool} {i : Nat} {r : ρ}
    (h : t.find p = some (i, r)) (r' : ρ) : (t.insert r').find p = some (i, r) := by
  obtain ⟨hget, hp, hbefore⟩ := find_eq_some_iff.mp h
  refine find_eq_some_iff.mpr ⟨get_insert_of_some hget r', hp, fun j x hj hx => ?_⟩
  have := lt_nextId hget
  obtain ⟨rfl, -⟩ | hx := get_insert_cases hx
  · omega
  · exact hbefore j x hj hx

/-- And after a rewrite the predicate cannot see. -/
theorem find_modify {t : Table ρ} {p : ρ → Bool} {i : Nat} {r : ρ} {f : ρ → ρ}
    (h : t.find p = some (i, r)) (hf : ∀ r, p (f r) = p r) (j : Nat) :
    (t.modify j f).find p = some (i, if j = i then f r else r) := by
  obtain ⟨hget, hp, hbefore⟩ := find_eq_some_iff.mp h
  refine find_eq_some_iff.mpr ⟨?_, ?_, fun k x hk hx => ?_⟩
  · rw [get_modify, hget]
    split <;> rfl
  · split
    · rw [hf, hp]
    · exact hp
  · obtain ⟨rfl, y, hy, rfl⟩ | ⟨-, hx⟩ := get_modify_cases hx
    · rw [hf]
      exact hbefore _ y hk hy
    · exact hbefore k x hk hx

/-- The first row of an ordered query comes before every other, and among its equals
was inserted first. -/
theorem ordered_head_first {t : Table ρ} {le : Nat × ρ → Nat × ρ → Bool}
    {p : Nat × ρ → Bool} {e e' : Nat × ρ}
    (htotal : ∀ a b, le a b = true ∨ le b a = true)
    (htrans : ∀ a b c, le a b = true → le b c = true → le a c = true)
    (h : (t.ordered le p).head? = some e) (he' : e' ∈ t.ordered le p) :
    le e e' = true ∧ (le e' e = true → e.1 ≤ e'.1) :=
  insertionSort_head_first htotal htrans
    (t.pairwise_entries.sublist List.filter_sublist) h e'
    ((List.mem_insertionSort _).mp he')

/-- The first row of an ordered query comes before every other. -/
theorem ordered_head {t : Table ρ} {le : Nat × ρ → Nat × ρ → Bool}
    {p : Nat × ρ → Bool} {e e' : Nat × ρ}
    (htotal : ∀ a b, le a b = true ∨ le b a = true)
    (htrans : ∀ a b c, le a b = true → le b c = true → le a c = true)
    (h : (t.ordered le p).head? = some e) (he' : e' ∈ t.entries.filter p) :
    le e e' = true :=
  (ordered_head_first htotal htrans h ((List.mem_insertionSort _).mpr he')).1

/-- An ordered query lists a key once. -/
theorem nodup_ordered (t : Table ρ) (le : Nat × ρ → Nat × ρ → Bool)
    (p : Nat × ρ → Bool) : ((t.ordered le p).map (·.1)).Nodup := by
  have hperm : ((t.ordered le p).map (·.1)).Perm ((t.entries.filter p).map (·.1)) :=
    (List.perm_insertionSort _ _).map _
  rw [hperm.nodup_iff]
  exact t.nodup_entries.sublist (List.filter_sublist.map _)

-- =========================================================== aggregates

@[simp] theorem total_insert (t : Table ρ) (r : ρ) (f : ρ → Int) :
    (t.insert r).total f = t.total f + f r := by
  simp [total]

@[simp] theorem total_foldl_insert (t : Table ρ) (rs : List ρ) (f : ρ → Int) :
    (rs.foldl insert t).total f = t.total f + (rs.map f).sum := by
  simp [total]

/-- Rewriting one row moves a total by the difference at that row. -/
theorem total_modify {t : Table ρ} {i : Nat} {r : ρ} (h : t.get i = some r)
    (g : ρ → ρ) (f : ρ → Int) :
    (t.modify i g).total f = t.total f - f r + f (g r) := by
  obtain ⟨rows⟩ := t
  simp only [total, modify, get] at h ⊢
  induction rows generalizing i with
  | nil => simp at h
  | cons a rows ih =>
      cases i with
      | zero =>
          have ha : a = r := by simpa using h
          subst ha
          simp only [List.modify_zero_cons, List.map_cons, List.sum_cons]
          omega
      | succ i =>
          have h' : rows[i]? = some r := by simpa using h
          simp only [List.modify_succ_cons, List.map_cons, List.sum_cons]
          rw [ih h']
          omega

/-- A total is blind to a rewrite that keeps the summand. -/
theorem total_modify_same {t : Table ρ} {i : Nat} {g : ρ → ρ} {f : ρ → Int}
    (hg : ∀ r, f (g r) = f r) : (t.modify i g).total f = t.total f := by
  cases h : t.get i with
  | none =>
      have hlen : t.rows.length ≤ i := by
        by_contra hlt
        simp [get, List.getElem?_eq_getElem (by omega : i < t.rows.length)] at h
      simp [total, modify, List.modify_eq_self hlen]
  | some r =>
      rw [total_modify h, hg r]
      omega

/-- A total of non-negative summands dominates each of them. -/
theorem le_total {t : Table ρ} {i : Nat} {r : ρ} {f : ρ → Int}
    (h : t.get i = some r) (hf : ∀ j x, t.get j = some x → 0 ≤ f x) :
    f r ≤ t.total f := by
  refine List.single_le_sum ?_ _ (List.mem_map_of_mem (mem_rows_of_get h))
  intro x hx
  obtain ⟨r', hr', rfl⟩ := List.mem_map.mp hx
  obtain ⟨j, hj⟩ := get_of_mem_rows hr'
  exact hf j r' hj

end Table

end Mosaic.Lib
