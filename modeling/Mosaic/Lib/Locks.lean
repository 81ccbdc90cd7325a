/-
Transactions that take row locks and hold them until they end.

# Transactions

A program says what a transaction does next: read and go on, wait for one
row (`FOR UPDATE`), take the rows of a query that nobody holds
(`SKIP LOCKED`), commit or abort. Reads see the committed database. The
world interleaves any number of transactions step by step; a transaction
whose row is taken stays where it is, and one that is cut off loses its
locks like one that ended.

# Waits

`Waits i j` says that `i` asks for a row that `j` holds, and a deadlock is
a cycle of waits. There is none where a measure of the waiting
transactions rises along every chain of two waits (`no_deadlock`): a lock
order is such a measure, the rank of the row that is asked for.

# The invariant rule

`run_inv` proves one property of every transaction, of its state and the
rows it holds, over every run: what it takes is one lemma per kind of
move, and that a commit leaves the other transactions' property alone.
-/
import Mosaic.Lib.Run
import Mathlib

namespace Mosaic.Lib.Locks

variable {δ σ ρ : Type}

-- ============================================================ transactions

/-- What a transaction does next. -/
inductive Move (δ σ ρ : Type)
  | go (next : σ)
  | wait (row : ρ) (next : σ)
  | take (rows : List ρ) (next : σ)
  | commit (db : δ)
  | abort

/-- The next move, from the rows others hold and the committed
database. -/
structure Program (δ σ ρ : Type) where
  next : (ρ → Bool) → δ → σ → Move δ σ ρ
  /-- The state of a transaction that has ended. -/
  ended : σ

/-- A transaction: where it stands and the rows it holds. -/
structure Tx (σ ρ : Type) where
  state : σ
  held : List ρ

structure World (δ σ ρ : Type) where
  db : δ
  txs : List (Tx σ ρ)

inductive Act (σ : Type)
  | begin (start : σ)
  | step (i : Nat)
  /-- The connection is lost, or the database breaks it off. -/
  | cut (i : Nat)

variable [DecidableEq ρ] (p : Program δ σ ρ)

/-- Rows that someone other than `i` holds. -/
def World.locked (w : World δ σ ρ) (i : Nat) (row : ρ) : Bool :=
  w.txs.zipIdx.any fun t => t.2 != i && t.1.held.contains row

def World.put (w : World δ σ ρ) (i : Nat) (t : Tx σ ρ) : World δ σ ρ :=
  { w with txs := w.txs.set i t }

/-- The end of a transaction: its locks are gone. -/
def World.finish (w : World δ σ ρ) (i : Nat) : World δ σ ρ :=
  w.put i { state := p.ended, held := [] }

/-- One move of transaction `i`. -/
def World.move (w : World δ σ ρ) (i : Nat) (t : Tx σ ρ) : World δ σ ρ :=
  match p.next (w.locked i) w.db t.state with
  | .go next => w.put i { t with state := next }
  | .wait row next =>
      if w.locked i row = true then w
      else w.put i { state := next, held := row :: t.held }
  | .take rows next =>
      if rows.any (w.locked i) = true then w
      else w.put i { state := next, held := rows ++ t.held }
  | .commit db => { w.finish p i with db }
  | .abort => w.finish p i

def step (w : World δ σ ρ) : Act σ → World δ σ ρ
  | .begin start => { w with txs := w.txs ++ [{ state := start, held := [] }] }
  | .step i =>
      match w.txs[i]? with
      | none => w
      | some t => w.move p i t
  | .cut i => w.finish p i

-- ================================================================= waits

/-- The row a transaction asks for. -/
def World.asks (w : World δ σ ρ) (i : Nat) : Option ρ :=
  (w.txs[i]?).bind fun t =>
    match p.next (w.locked i) w.db t.state with
    | .wait row _ => some row
    | _ => none

def World.holds (w : World δ σ ρ) (i : Nat) (row : ρ) : Prop :=
  ∃ t, w.txs[i]? = some t ∧ row ∈ t.held

/-- `i` asks for a row that `j` holds. -/
def Waits (w : World δ σ ρ) (i j : Nat) : Prop :=
  i ≠ j ∧ ∃ row, w.asks p i = some row ∧ w.holds j row

def Deadlock (w : World δ σ ρ) : Prop := ∃ i, Relation.TransGen (Waits p w) i i

variable {p}

/-- A measure that rises along every chain of waits rules cycles out. -/
theorem no_deadlock {w : World δ σ ρ} (μ : Nat → Nat)
    (h : ∀ i j k, Waits p w i j → Waits p w j k → μ i < μ j) : ¬ Deadlock p w := by
  have hrise : ∀ {i j}, Relation.TransGen (Waits p w) i j →
      ∀ k, Waits p w j k → μ i < μ j := by
    intro i j hij
    induction hij with
    | single hij => exact fun k hjk => h _ _ k hij hjk
    | tail _ hbc ih => exact fun k hck => lt_trans (ih _ hbc) (h _ _ k hbc hck)
  rintro ⟨i, hcycle⟩
  obtain ⟨k, hik, -⟩ := Relation.TransGen.head'_iff.mp hcycle
  exact lt_irrefl _ (hrise hcycle k hik)

/-- Two transactions that wait for each other. -/
theorem deadlock_of_two {w : World δ σ ρ} {i j : Nat} (hij : Waits p w i j)
    (hji : Waits p w j i) : Deadlock p w :=
  ⟨i, .tail (.single hij) hji⟩

-- ============================================================= invariants

/-- No row is held twice. -/
def World.Exclusive (w : World δ σ ρ) : Prop :=
  ∀ i j row, w.holds i row → w.holds j row → i = j

theorem locked_of_holds {w : World δ σ ρ} {i j : Nat} {row : ρ} (hij : j ≠ i)
    (h : w.holds j row) : w.locked i row = true := by
  obtain ⟨t, ht, hrow⟩ := h
  refine List.any_eq_true.mpr ⟨(t, j), ?_, ?_⟩
  · exact List.mem_zipIdx_iff_getElem?.mpr ht
  · simp [hij, hrow]

theorem holds_of_locked {w : World δ σ ρ} {i : Nat} {row : ρ}
    (h : w.locked i row = true) : ∃ j, j ≠ i ∧ w.holds j row := by
  obtain ⟨⟨t, j⟩, hmem, hrow⟩ := List.any_eq_true.mp h
  simp only [Bool.and_eq_true, bne_iff_ne, List.contains_iff_mem] at hrow
  exact ⟨j, hrow.1, t, List.mem_zipIdx_iff_getElem?.mp hmem, hrow.2⟩

omit [DecidableEq ρ] in
theorem holds_put {w : World δ σ ρ} {i j : Nat} {t : Tx σ ρ} {row : ρ}
    (h : (w.put i t).holds j row) : (j = i ∧ row ∈ t.held) ∨ (j ≠ i ∧ w.holds j row) := by
  obtain ⟨t', ht', hrow⟩ := h
  rw [World.put, List.getElem?_set] at ht'
  split at ht'
  · next hij =>
      split at ht'
      · cases ht'
        exact .inl ⟨hij.symm, hrow⟩
      · cases ht'
  · next hij => exact .inr ⟨fun h => hij h.symm, t', ht', hrow⟩

/-- A transaction may hold what it held and rows that were free. -/
theorem World.Exclusive.put {w : World δ σ ρ} (h : w.Exclusive) {i : Nat} {t : Tx σ ρ}
    (hheld : ∀ row ∈ t.held, w.holds i row ∨ w.locked i row = false) :
    (w.put i t).Exclusive := by
  have hother : ∀ {j row}, j ≠ i → w.holds j row → row ∈ t.held → False := by
    intro j row hj hholds hrow
    rcases hheld row hrow with hmine | hfree
    · exact hj (h j i row hholds hmine)
    · rw [locked_of_holds hj hholds] at hfree
      cases hfree
  intro j k row hj hk
  rcases holds_put hj with ⟨hji, hrow⟩ | ⟨hji, hj'⟩
  · rcases holds_put hk with ⟨hki, -⟩ | ⟨hki, hk'⟩
    · exact hji.trans hki.symm
    · exact (hother hki hk' hrow).elim
  · rcases holds_put hk with ⟨-, hrow⟩ | ⟨-, hk'⟩
    · exact (hother hji hj' hrow).elim
    · exact h j k row hj' hk'

/-- A property of the database and one of every transaction. -/
structure Inv (G : δ → Prop) (P : δ → σ → List ρ → Prop) (w : World δ σ ρ) : Prop where
  db : G w.db
  tx : ∀ (i : Nat) (t : Tx σ ρ), w.txs[i]? = some t → P w.db t.state t.held
  exclusive : w.Exclusive

theorem Inv.put {G : δ → Prop} {P : δ → σ → List ρ → Prop} {w : World δ σ ρ}
    (h : Inv G P w) {i : Nat} {t : Tx σ ρ} (ht : P w.db t.state t.held)
    (hheld : ∀ row ∈ t.held, w.holds i row ∨ w.locked i row = false) :
    Inv G P (w.put i t) where
  db := h.db
  tx := by
    intro j t' ht'
    rw [World.put, List.getElem?_set] at ht'
    split at ht'
    · split at ht'
      · cases ht'
        exact ht
      · cases ht'
    · exact h.tx j t' ht'
  exclusive := h.exclusive.put hheld

/-- What a program has to respect, move by move, in the steps that are
`good`. -/
structure Keeps (p : Program δ σ ρ) (good : World δ σ ρ → Act σ → Prop) (G : δ → Prop)
    (P : δ → σ → List ρ → Prop) : Prop where
  begin : ∀ {w s}, Inv G P w → good w (.begin s) → P w.db s []
  ended : ∀ db, P db p.ended []
  go : ∀ {w i t s}, Inv G P w → good w (.step i) → w.txs[i]? = some t →
    p.next (w.locked i) w.db t.state = .go s → P w.db s t.held
  wait : ∀ {w i t row s}, Inv G P w → good w (.step i) → w.txs[i]? = some t →
    p.next (w.locked i) w.db t.state = .wait row s → w.locked i row = false →
    P w.db s (row :: t.held)
  take : ∀ {w i t rows s}, Inv G P w → good w (.step i) → w.txs[i]? = some t →
    p.next (w.locked i) w.db t.state = .take rows s →
    (∀ row ∈ rows, w.locked i row = false) → P w.db s (rows ++ t.held)
  commit : ∀ {w i t db}, Inv G P w → good w (.step i) → w.txs[i]? = some t →
    p.next (w.locked i) w.db t.state = .commit db →
    G db ∧ ∀ (j : Nat) (t' : Tx σ ρ), w.txs[j]? = some t' → (∀ row ∈ t.held, row ∉ t'.held) →
      P db t'.state t'.held

theorem Inv.finish {G : δ → Prop} {P : δ → σ → List ρ → Prop} {w : World δ σ ρ}
    (h : Inv G P w) (hended : P w.db p.ended []) (i : Nat) : Inv G P (w.finish p i) :=
  h.put hended (fun _ hrow => by cases hrow)

section

variable {good : World δ σ ρ → Act σ → Prop} {G : δ → Prop} {P : δ → σ → List ρ → Prop}

theorem Keeps.move (hp : Keeps p good G P) {w : World δ σ ρ} (h : Inv G P w) {i : Nat}
    {t : Tx σ ρ} (hgood : good w (.step i)) (ht : w.txs[i]? = some t) :
    Inv G P (w.move p i t) := by
  have hmine : ∀ row ∈ t.held, w.holds i row ∨ w.locked i row = false :=
    fun row hrow => .inl ⟨t, ht, hrow⟩
  unfold World.move
  split
  · next s hnext =>
      have hgo := hp.go h hgood ht hnext
      exact h.put hgo hmine
  · next row s hnext =>
      split
      · exact h
      · next hfree =>
          have hfree : w.locked i row = false := by simpa using hfree
          refine h.put (hp.wait h hgood ht hnext hfree) ?_
          intro row' hrow'
          rcases List.mem_cons.mp hrow' with rfl | hrow'
          · exact .inr hfree
          · exact hmine row' hrow'
  · next rows s hnext =>
      split
      · exact h
      · next hfree =>
          have hfree : ∀ row ∈ rows, w.locked i row = false := by
            simpa using hfree
          refine h.put (hp.take h hgood ht hnext hfree) ?_
          intro row' hrow'
          rcases List.mem_append.mp hrow' with hrow' | hrow'
          · exact .inr (hfree row' hrow')
          · exact hmine row' hrow'
  · next db hnext =>
      obtain ⟨hG, hothers⟩ := hp.commit h hgood ht hnext
      -- the others hold none of the rows the transaction wrote under
      have hpost : ∀ (j : Nat) (t' : Tx σ ρ), j ≠ i → w.txs[j]? = some t' → P db t'.state t'.held := by
        intro j t' hj ht'
        refine hothers j t' ht' ?_
        intro row hrow hrow'
        exact hj (h.exclusive j i row ⟨t', ht', hrow'⟩ ⟨t, ht, hrow⟩)
      refine ⟨hG, ?_, (h.finish (hp.ended _) i).exclusive⟩
      intro j t' ht'
      dsimp only at ht'
      rw [World.finish, World.put, List.getElem?_set] at ht'
      split at ht'
      · split at ht'
        · cases ht'
          exact hp.ended db
        · cases ht'
      · next hij => exact hpost j t' (fun h => hij h.symm) ht'
  · exact h.finish (hp.ended _) i

theorem Keeps.step (hp : Keeps p good G P) {w : World δ σ ρ} (h : Inv G P w) {a : Act σ}
    (hgood : good w a) : Inv G P (step p w a) := by
  cases a with
  | begin s =>
      have hnew : ∀ {j : Nat} {t : Tx σ ρ}, (w.txs ++ [{ state := s, held := ([] : List ρ) }])[j]? = some t →
          w.txs[j]? = some t ∨ t = { state := s, held := [] } := by
        intro j t ht
        rw [List.getElem?_append] at ht
        split at ht
        · exact .inl ht
        · right
          have := List.mem_of_getElem? ht
          simpa using this
      have hbegin := hp.begin h hgood
      refine ⟨h.db, ?_, ?_⟩
      · intro j t ht
        rcases hnew ht with ht | rfl
        · exact h.tx j t ht
        · exact hbegin
      · rintro j k row ⟨t, ht, hrow⟩ ⟨t', ht', hrow'⟩
        rcases hnew ht with ht | rfl
        · rcases hnew ht' with ht' | rfl
          · exact h.exclusive j k row ⟨t, ht, hrow⟩ ⟨t', ht', hrow'⟩
          · cases hrow'
        · cases hrow
  | step i =>
      show Inv G P (match w.txs[i]? with | none => w | some t => w.move p i t)
      split
      · exact h
      · next t ht => exact hp.move h hgood ht
  | cut i => exact h.finish (hp.ended _) i

/-- What every good step keeps holds in every state of every good run. -/
theorem run_inv (hp : Keeps p good G P) {w : World δ σ ρ} (h : Inv G P w) {as : List (Act σ)}
    (hgood : RunAll (step p) good w as) : Inv G P (run (step p) w as) := by
  have hstep : ∀ w a, good w a → Inv G P w → Inv G P (Locks.step p w a) :=
    fun _ _ hg hi => hp.step hi hg
  exact run_invariant_of hstep hgood h

end

omit [DecidableEq ρ] in
/-- Before any transaction there is nothing to keep but the database. -/
theorem inv_idle {G : δ → Prop} {P : δ → σ → List ρ → Prop} {db : δ} (h : G db) :
    Inv G P { db, txs := [] } where
  db := h
  tx := by simp
  exclusive := by
    rintro i j row ⟨t, ht, -⟩
    simp at ht

end Mosaic.Lib.Locks
