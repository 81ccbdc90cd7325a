/-
The lock order of the billing service.

# The order

A transaction locks the wallet first, then the reservation, then the usage
record. `Place` says, statement by statement, which rows a transaction
holds there; a reservation it holds or is about to lock belongs to the
wallet it holds. Along two waits the asked row's rank rises, so no cycle
of waits exists.

# The exception

The second branch of `reserve` locks the wallet of the requested currency,
looks the source up again and locks the reservation it finds there. If
that reservation is in another wallet, another currency of the tenant, the
reservation is locked before its wallet. `SameWallet` is the condition
that this does not happen.
-/
import Mosaic.Billing.Locks

namespace Mosaic.Billing

open Lib Locks

-- ================================================================ tables

/-- The wallet a reservation belongs to. -/
def walletOf (db : Db) (id : Nat) : Option Nat :=
  (db.reservations.get id).map (·.walletAccountId)

/-- A settlement keeps the wallet of every reservation. -/
theorem map_wallet_modify (t : Table BalanceReservation) (i id : Nat)
    {f : BalanceReservation → BalanceReservation}
    (hf : ∀ r, (f r).walletAccountId = r.walletAccountId) :
    ((t.modify i f).get id).map (·.walletAccountId)
      = (t.get id).map (·.walletAccountId) := by
  rw [Table.get_modify]
  split
  · rw [Option.map_map]
    exact congrArg (fun g => (t.get id).map g) (funext hf)
  · rfl

/-- No call moves a reservation to another wallet. -/
theorem Writes.walletOf {db db' : Db} (h : Writes db db') {id walletId : Nat}
    (hw : walletOf db id = some walletId) : walletOf db' id = some walletId := by
  cases h with
  | usage us => exact hw
  | hold walletId w q _ _ _ =>
      obtain ⟨r, hr, rfl⟩ := Option.map_eq_some_iff.mp hw
      exact congrArg _ (Table.get_insert_of_some hr _)
  | capture now tenantId id' r' w d us _ _ _ _ _ _ =>
      refine (map_wallet_modify db.reservations id' id ?_).trans hw
      exact fun _ => rfl
  | release now tenantId id' r' w d _ _ _ _ =>
      refine (map_wallet_modify db.reservations id' id ?_).trans hw
      exact fun _ => rfl

theorem walletOf_of_lock {db : Db} {tenantId id : Nat} {r : BalanceReservation}
    (h : lockReservation db tenantId id = .ok r) :
    walletOf db id = some r.walletAccountId := by
  rw [walletOf, (lockReservation_ok h).1]
  rfl

theorem walletOf_of_find {db : Db} {q : ReserveRequest} {id : Nat}
    {r : BalanceReservation}
    (h : findReservationBySource db q.tenantId q.sourceType q.sourceId = some (id, r)) :
    walletOf db id = some r.walletAccountId := by
  rw [walletOf, (Table.find_some h).1]
  rfl

-- ================================================================= order

/-- Every reservation held is one of a wallet held. -/
def Covered (db : Db) (held : List LockRow) : Prop :=
  ∀ id, .reservation id ∈ held → ∃ walletId,
    walletOf db id = some walletId ∧ .wallet walletId ∈ held

/-- What a transaction holds where it stands. -/
def Place (db : Db) (state : TxState) (held : List LockRow) : Prop :=
  match state with
  | .find _ _ => held = []
  | .raceFind _ => held = []
  | .replayWallet _ id walletId => held = [] ∧ walletOf db id = some walletId
  | .replayReservation _ id =>
      ∃ walletId, held = [.wallet walletId] ∧ walletOf db id = some walletId
  | .currencyWallet _ _ => held = []
  | .sourceReservation _ _ walletId => held = [.wallet walletId]
  | .existingWallet _ id walletId =>
      held = [.reservation id, .wallet walletId] ∧ walletOf db id = some walletId
  | .settleRead _ _ _ _ => held = []
  | .settleWallet _ _ id walletId _ => held = [] ∧ walletOf db id = some walletId
  | .settleReservation _ _ id _ =>
      ∃ walletId, held = [.wallet walletId] ∧ walletOf db id = some walletId
  | .settleUsage _ _ id =>
      ∃ walletId, held = [.reservation id, .wallet walletId]
        ∧ walletOf db id = some walletId
  | .write _ => Covered db held
  | .replayed => Covered db held
  | .ended => Covered db held

theorem covered_nil (db : Db) : Covered db [] := by
  intro id hid
  cases hid

theorem covered_pair {db : Db} {id walletId : Nat} (h : walletOf db id = some walletId) :
    Covered db [.reservation id, .wallet walletId] := by
  intro id' hid'
  have hid : id' = id := by simpa using hid'
  rw [hid]
  exact ⟨walletId, h, by simp⟩

theorem Covered.more {db : Db} {held : List LockRow} (h : Covered db held) {row : LockRow}
    (hrow : ∀ id, row ≠ .reservation id) : Covered db (row :: held) := by
  intro id hid
  rcases List.mem_cons.mp hid with heq | hid
  · exact absurd heq.symm (hrow id)
  · obtain ⟨walletId, hw, hmem⟩ := h id hid
    exact ⟨walletId, hw, List.mem_cons_of_mem _ hmem⟩

/-- Wherever a transaction stands, the wallets of its reservations are
locked. -/
theorem Place.covered {db : Db} {state : TxState} {held : List LockRow}
    (h : Place db state held) : Covered db held := by
  cases state with
  | find => rw [h]; exact covered_nil db
  | raceFind => rw [h]; exact covered_nil db
  | replayWallet => rw [h.1]; exact covered_nil db
  | replayReservation =>
      obtain ⟨walletId, rfl, -⟩ := h
      exact (covered_nil db).more (by simp)
  | currencyWallet => rw [h]; exact covered_nil db
  | sourceReservation => rw [h]; exact (covered_nil db).more (by simp)
  | existingWallet =>
      obtain ⟨rfl, hw⟩ := h
      exact covered_pair hw
  | settleRead => rw [h]; exact covered_nil db
  | settleWallet => rw [h.1]; exact covered_nil db
  | settleReservation =>
      obtain ⟨walletId, rfl, -⟩ := h
      exact (covered_nil db).more (by simp)
  | settleUsage =>
      obtain ⟨walletId, rfl, hw⟩ := h
      exact covered_pair hw
  | write => exact h
  | replayed => exact h
  | ended => exact h

/-- A call of another transaction changes nothing a place rests on. -/
theorem Place.writes {db db' : Db} (hw : Writes db db') {state : TxState}
    {held : List LockRow} (h : Place db state held) : Place db' state held := by
  have hcovered : Covered db held → Covered db' held := by
    intro hc id hid
    obtain ⟨walletId, hof, hmem⟩ := hc id hid
    exact ⟨walletId, hw.walletOf hof, hmem⟩
  cases state with
  | find => exact h
  | raceFind => exact h
  | replayWallet => exact ⟨h.1, hw.walletOf h.2⟩
  | replayReservation =>
      obtain ⟨walletId, hheld, hof⟩ := h
      exact ⟨walletId, hheld, hw.walletOf hof⟩
  | currencyWallet => exact h
  | sourceReservation => exact h
  | existingWallet => exact ⟨h.1, hw.walletOf h.2⟩
  | settleRead => exact h
  | settleWallet => exact ⟨h.1, hw.walletOf h.2⟩
  | settleReservation =>
      obtain ⟨walletId, hheld, hof⟩ := h
      exact ⟨walletId, hheld, hw.walletOf hof⟩
  | settleUsage =>
      obtain ⟨walletId, hheld, hof⟩ := h
      exact ⟨walletId, hheld, hw.walletOf hof⟩
  | write => exact hcovered h
  | replayed => exact hcovered h
  | ended => exact hcovered h

-- ============================================================= condition

/-- A `reserve` that holds the wallet of its currency finds, if any, a
reservation of that same wallet under its source. -/
def sameWallet (w : LockWorld) : LockAct → Bool
  | .step i =>
      match (w.txs[i]?).map Tx.state with
      | some (.sourceReservation _ q walletId) =>
          (findReservationBySource w.db q.tenantId q.sourceType q.sourceId).all
            fun e => e.2.walletAccountId == walletId
      | _ => true
  | _ => true

/-- What that means for the reservation that was found. -/
theorem sameWallet_step {w : LockWorld} {i : Nat} {t : Tx TxState LockRow} {call : Call}
    {q : ReserveRequest} {walletId id : Nat} {r : BalanceReservation}
    (h : sameWallet w (.step i) = true) (ht : w.txs[i]? = some t)
    (hstate : t.state = .sourceReservation call q walletId)
    (hfind : findReservationBySource w.db q.tenantId q.sourceType q.sourceId
      = some (id, r)) : r.walletAccountId = walletId := by
  simpa [sameWallet, ht, hstate, hfind] using h

/-- The same of the moves of the library. -/
def SameWalletMove (w : LockWorld) : Act TxState → Prop
  | .begin start => ∃ call, Call.transaction call = some start
  | .step i => sameWallet w (.step i) = true
  | .cut _ => True

theorem transaction_place {call : Call} {start : TxState}
    (h : call.transaction = some start) (db : Db) : Place db start [] := by
  unfold Call.transaction at h
  split at h
  · split at h
    · cases h
    · split at h
      · cases h
        rfl
      · cases h
        rfl
      · cases h
  · split at h
    · cases h
    · cases h
      rfl
  · split at h
    · cases h
    · cases h
      rfl
  · cases h
    rfl
  · cases h

-- ================================================================= moves

/-- The reads of a transaction. -/
inductive Goes (db : Db) : TxState → TxState → Prop
  | found {call q id r}
      (h : findReservationBySource db q.tenantId q.sourceType q.sourceId = some (id, r)) :
      Goes db (.find call q) (.replayWallet q.tenantId id r.walletAccountId)
  | fresh {call q} : Goes db (.find call q) (.currencyWallet call q)
  | raced {q id r}
      (h : findReservationBySource db q.tenantId q.sourceType q.sourceId = some (id, r)) :
      Goes db (.raceFind q) (.replayWallet q.tenantId id r.walletAccountId)
  | alone {call q walletId} : Goes db (.sourceReservation call q walletId) (.write call)
  | settles {call tenantId id priced r} (h : lockReservation db tenantId id = .ok r) :
      Goes db (.settleRead call tenantId id priced)
        (.settleWallet call tenantId id r.walletAccountId priced)

/-- The locking statements of a transaction. -/
inductive Locked (db : Db) : TxState → LockRow → TxState → Prop
  | replayWallet {tenantId id walletId} :
      Locked db (.replayWallet tenantId id walletId) (.wallet walletId)
        (.replayReservation tenantId id)
  | replayReservation {tenantId id} :
      Locked db (.replayReservation tenantId id) (.reservation id) .replayed
  | currencyWallet {call q walletId} :
      Locked db (.currencyWallet call q) (.wallet walletId)
        (.sourceReservation call q walletId)
  | sourceReservation {call q walletId id r}
      (h : findReservationBySource db q.tenantId q.sourceType q.sourceId = some (id, r)) :
      Locked db (.sourceReservation call q walletId) (.reservation id)
        (.existingWallet q.tenantId id r.walletAccountId)
  | existingWallet {tenantId id walletId} :
      Locked db (.existingWallet tenantId id walletId) (.wallet walletId) .replayed
  | settleWallet {call tenantId id walletId priced} :
      Locked db (.settleWallet call tenantId id walletId priced) (.wallet walletId)
        (.settleReservation call tenantId id priced)
  | settleReservation {call tenantId id priced} :
      Locked db (.settleReservation call tenantId id priced) (.reservation id)
        (if priced = true then .settleUsage call tenantId id else .write call)
  | settleUsage {call tenantId id usageId} :
      Locked db (.settleUsage call tenantId id) (.usage usageId) (.write call)

theorem nextMove_go {db : Db} {state next : TxState}
    (h : nextMove db state = .go next) : Goes db state next := by
  cases state with
  | find call q =>
      simp only [nextMove] at h
      split at h
      · next hfind => cases h; exact .found hfind
      · cases h; exact .fresh
  | raceFind q =>
      simp only [nextMove] at h
      split at h
      · next hfind => cases h; exact .raced hfind
      · cases h
  | sourceReservation call q walletId =>
      simp only [nextMove] at h
      split at h
      · cases h
      · cases h; exact .alone
  | settleRead call tenantId id priced =>
      simp only [nextMove] at h
      split at h
      · next hlock => cases h; exact .settles hlock
      · cases h
  | settleUsage call tenantId id =>
      simp only [nextMove] at h
      split at h
      · split at h <;> cases h
      · cases h
  | replayWallet => simp only [nextMove] at h; split at h <;> cases h
  | replayReservation => simp only [nextMove] at h; split at h <;> cases h
  | currencyWallet => simp only [nextMove] at h; split at h <;> cases h
  | existingWallet => simp only [nextMove] at h; split at h <;> cases h
  | settleWallet => simp only [nextMove] at h; split at h <;> cases h
  | settleReservation => simp only [nextMove] at h; split at h <;> cases h
  | write => cases h
  | replayed => cases h
  | ended => cases h

theorem nextMove_wait {db : Db} {state next : TxState} {row : LockRow}
    (h : nextMove db state = .wait row next) : Locked db state row next := by
  cases state with
  | replayWallet =>
      simp only [nextMove] at h
      split at h
      · cases h; exact .replayWallet
      · cases h
  | replayReservation =>
      simp only [nextMove] at h
      split at h
      · cases h; exact .replayReservation
      · cases h
  | currencyWallet =>
      simp only [nextMove] at h
      split at h
      · cases h; exact .currencyWallet
      · cases h
  | sourceReservation =>
      simp only [nextMove] at h
      split at h
      · next hfind => cases h; exact .sourceReservation hfind
      · cases h
  | existingWallet =>
      simp only [nextMove] at h
      split at h
      · cases h; exact .existingWallet
      · cases h
  | settleWallet =>
      simp only [nextMove] at h
      split at h
      · cases h; exact .settleWallet
      · cases h
  | settleReservation =>
      simp only [nextMove] at h
      split at h
      · cases h; exact .settleReservation
      · cases h
  | settleUsage =>
      simp only [nextMove] at h
      split at h
      · split at h
        · cases h; exact .settleUsage
        · cases h
      · cases h
  | find => simp only [nextMove] at h; split at h <;> cases h
  | raceFind => simp only [nextMove] at h; split at h <;> cases h
  | settleRead => simp only [nextMove] at h; split at h <;> cases h
  | write => cases h
  | replayed => cases h
  | ended => cases h

/-- The other moves: a commit writes what a call writes, and no query
skips locked rows. -/
theorem nextMove_ends {db : Db} {state : TxState} :
    (∀ db', nextMove db state = .commit db' → Writes db db')
      ∧ ∀ rows next, nextMove db state ≠ .take rows next := by
  unfold nextMove
  split
  case h_12 call =>
    refine ⟨?_, fun _ _ h => by cases h⟩
    intro db' h
    cases h
    exact step_writes db call
  case h_13 =>
    refine ⟨?_, fun _ _ h => by cases h⟩
    intro db' h
    cases h
    exact Writes.refl db
  case h_11 =>
    split
    · split <;> exact ⟨fun _ h => (by cases h), fun _ _ h => by cases h⟩
    · exact ⟨fun _ h => (by cases h), fun _ _ h => by cases h⟩
  case h_14 => exact ⟨fun _ h => (by cases h), fun _ _ h => by cases h⟩
  all_goals split <;> exact ⟨fun _ h => (by cases h), fun _ _ h => by cases h⟩

/-- A read goes on to a place that fits the rows held. -/
theorem Place.go {db : Db} {state next : TxState} {held : List LockRow}
    (h : Place db state held) (hgo : Goes db state next) : Place db next held := by
  cases hgo with
  | found hfind => exact ⟨h, walletOf_of_find hfind⟩
  | fresh => exact h
  | raced hfind => exact ⟨h, walletOf_of_find hfind⟩
  | alone => exact Place.covered h
  | settles hlock => exact ⟨h, walletOf_of_lock hlock⟩

/-- A lock leads to the place that holds it. -/
theorem Place.lock {db : Db} {state next : TxState} {held : List LockRow} {row : LockRow}
    (h : Place db state held) (hlock : Locked db state row next)
    (hsame : ∀ call q walletId id r, state = .sourceReservation call q walletId →
      findReservationBySource db q.tenantId q.sourceType q.sourceId = some (id, r) →
      r.walletAccountId = walletId) : Place db next (row :: held) := by
  cases hlock with
  | @replayWallet tenantId id walletId =>
      obtain ⟨rfl, hof⟩ := h
      exact ⟨walletId, rfl, hof⟩
  | replayReservation =>
      obtain ⟨walletId, rfl, hof⟩ := h
      exact covered_pair hof
  | currencyWallet =>
      have hheld : held = [] := h
      rw [hheld]
      rfl
  | @sourceReservation call q walletId id r hfind =>
      have hheld : held = [.wallet walletId] := h
      have hof := walletOf_of_find hfind
      rw [hsame call q walletId id r rfl hfind] at hof ⊢
      exact ⟨by rw [hheld], hof⟩
  | existingWallet => exact (Place.covered h).more (by simp)
  | @settleWallet call tenantId id walletId priced =>
      obtain ⟨rfl, hof⟩ := h
      exact ⟨walletId, rfl, hof⟩
  | @settleReservation call tenantId id priced =>
      obtain ⟨walletId, rfl, hof⟩ := h
      cases priced with
      | true => exact ⟨walletId, rfl, hof⟩
      | false => exact covered_pair hof
  | settleUsage => exact (Place.covered h).more (by simp)

theorem lock_keeps : Keeps lockProgram SameWalletMove (fun _ => True) Place where
  begin := by
    rintro w s - ⟨call, hcall⟩
    exact transaction_place hcall w.db
  ended := covered_nil
  go := fun h _ ht hnext => Place.go (h.tx _ _ ht) (nextMove_go hnext)
  wait := fun h hgood ht hnext _ =>
    Place.lock (h.tx _ _ ht) (nextMove_wait hnext) fun _ _ _ _ _ hstate hfind =>
      sameWallet_step hgood ht hstate hfind
  take := by
    intro w i t rows s _ _ _ hnext _
    exact absurd hnext (nextMove_ends.2 rows s)
  commit := by
    intro w i t db h _ _ hnext
    have hwrites := nextMove_ends.1 db hnext
    exact ⟨trivial, fun j t' ht' _ => Place.writes hwrites (h.tx j t' ht')⟩

-- =============================================================== results

/-- The order the rows are locked in. -/
def LockRow.rank : LockRow → Nat
  | .wallet _ => 0
  | .reservation _ => 1
  | .usage _ => 2

/-- A transaction asks for a row above all it holds, or for one of them. -/
theorem Place.above {db : Db} {state next : TxState} {held : List LockRow} {row : LockRow}
    (h : Place db state held) (hlock : Locked db state row next) :
    row ∈ held ∨ ∀ row' ∈ held, row'.rank < row.rank := by
  cases hlock with
  | replayWallet =>
      rw [h.1]
      exact .inr (by simp)
  | replayReservation =>
      obtain ⟨walletId, rfl, -⟩ := h
      exact .inr (by simp [LockRow.rank])
  | currencyWallet =>
      have hheld : held = [] := h
      rw [hheld]
      exact .inr (by simp)
  | @sourceReservation call q walletId id r hfind =>
      have hheld : held = [.wallet walletId] := h
      rw [hheld]
      exact .inr (by simp [LockRow.rank])
  | existingWallet =>
      rw [h.1]
      exact .inl (by simp)
  | settleWallet =>
      rw [h.1]
      exact .inr (by simp)
  | settleReservation =>
      obtain ⟨walletId, rfl, -⟩ := h
      exact .inr (by simp [LockRow.rank])
  | settleUsage =>
      obtain ⟨walletId, rfl, -⟩ := h
      exact .inr (by simp [LockRow.rank])

theorem asks_some {w : LockWorld} {i : Nat} {row : LockRow}
    (h : w.asks lockProgram i = some row) :
    ∃ t next, w.txs[i]? = some t ∧ Locked w.db t.state row next := by
  obtain ⟨t, ht, h⟩ := Option.bind_eq_some_iff.mp h
  split at h
  · next row' next hnext =>
      cases h
      exact ⟨t, next, ht, nextMove_wait hnext⟩
  · cases h

/-- Where every place is kept, no transactions wait in a circle. -/
theorem no_deadlock_of_places {w : LockWorld} (h : Inv (fun _ => True) Place w) :
    ¬ Deadlock lockProgram w := by
  refine no_deadlock (fun i => ((w.asks lockProgram i).map LockRow.rank).getD 0) ?_
  rintro i j k ⟨-, row, hi, t, ht, hheld⟩ ⟨hjk, row', hj, hk⟩
  obtain ⟨t', next, ht', hlock⟩ := asks_some hj
  rw [ht] at ht'
  cases ht'
  simp only [hi, hj, Option.map_some, Option.getD_some]
  rcases (h.tx j t ht).above hlock with hown | habove
  · -- the row it asks for is its own, so nobody else holds it
    exact absurd (h.exclusive j k row' ⟨t, ht, hown⟩ hk) hjk
  · exact habove row hheld

theorem lockStep_inv {w : LockWorld} {a : LockAct} (hgood : sameWallet w a = true)
    (h : Inv (fun _ => True) Place w) : Inv (fun _ => True) Place (lockStep w a) := by
  cases a with
  | open_ call =>
      cases hstart : call.transaction with
      | none =>
          simp only [lockStep, hstart]
          exact h
      | some start =>
          have hbegin : SameWalletMove w (.begin start) := ⟨call, hstart⟩
          simp only [lockStep, hstart]
          exact lock_keeps.step h hbegin
  | step i =>
      have hmove : SameWalletMove w (.step i) := hgood
      exact lock_keeps.step h hmove
  | cut i =>
      have hcut : SameWalletMove w (.cut i) := trivial
      exact lock_keeps.step h hcut

/-- As long as no `reserve` finds a reservation of its source in another
wallet than the one it locked, a wallet is locked before its reservations
and no transactions wait for each other in a circle. -/
theorem billing_lock_order (db : Db) (acts : List LockAct)
    (hgood : RunAll lockStep (fun w a => sameWallet w a = true) { db, txs := [] } acts) :
    ¬ Deadlock lockProgram (run lockStep { db, txs := [] } acts)
      ∧ ∀ i id r, (run lockStep { db, txs := [] } acts).holds i (.reservation id) →
        (run lockStep { db, txs := [] } acts).db.reservations.get id = some r →
        (run lockStep { db, txs := [] } acts).holds i (.wallet r.walletAccountId) := by
  have hstep : ∀ w a, sameWallet w a = true → Inv (fun _ => True) Place w →
      Inv (fun _ => True) Place (lockStep w a) := fun _ _ hg hi => lockStep_inv hg hi
  have hinv := run_invariant_of hstep hgood (inv_idle trivial)
  refine ⟨no_deadlock_of_places hinv, ?_⟩
  rintro i id r ⟨t, ht, hheld⟩ hr
  obtain ⟨walletId, hof, hmem⟩ := (hinv.tx i t ht).covered id hheld
  rw [walletOf, hr] at hof
  cases hof
  exact ⟨t, ht, hmem⟩

/-- A tenant with a wallet in each of two currencies. -/
def twoWallets : Db :=
  let wallet (currency : String) : WalletAccount :=
    { tenantId := 1, currency, balanceMinor := 100, reservedMinor := 0, version := 0
      status := .active }
  { wallets := ⟨[wallet "USD", wallet "EUR"]⟩, reservations := .empty, ledger := .empty
    usageRecords := .empty }

def reserveTen (amount : Money) : Call :=
  .reserve 0 .none
    { tenantId := 1, sourceType := "chat_inference", sourceId := 7, amount
      expiresAt := 900 }

def tenDollars : Money := { amountMinor := 10, currency := "USD", code := by decide }

def tenEuros : Money := { amountMinor := 10, currency := "EUR", code := by decide }

/-- A capture of the hold, given its amount. -/
def captureTen : Call :=
  .capture 1 .none
    { inferencePriceVersionId := fun _ _ => none
      generationPriceVersionId := fun _ _ => none, priceVersions := fun _ => none }
    { tenantId := 1, reservationId := 0, actual := some tenEuros }

/-- Two holds of one source in one currency: both look it up and find nothing,
the second opens the hold, and the first finds it with its second lookup. A
capture waits behind it. -/
def oneCurrency : List LockAct :=
  [.open_ (reserveTen tenEuros), .step 0,
   .open_ (reserveTen tenEuros), .step 1, .step 1, .step 1, .step 1,
   .step 0, .step 0,
   .open_ captureTen, .step 2, .step 2]

theorem billing_lock_order_sample :
    let w := run lockStep { db := twoWallets, txs := [] } oneCurrency
    ¬ Deadlock lockProgram w ∧ w.asks lockProgram 2 = some (.wallet 1)
      ∧ w.holds 0 (.reservation 0) ∧ w.holds 0 (.wallet 1) := by
  have horder := billing_lock_order twoWallets oneCurrency (by decide)
  have hholds : (run lockStep { db := twoWallets, txs := [] } oneCurrency).holds 0
      (.reservation 0) := ⟨_, rfl, by decide⟩
  exact ⟨horder.1, rfl, hholds, horder.2 0 0 _ hholds rfl⟩

/-- A `reserve` in dollars looks its source up and finds nothing; another
in euros opens the hold. The first then locks its dollar wallet and the
hold, a capture locks the euro wallet, and each waits for the other. -/
def crossCurrency : List LockAct :=
  [.open_ (reserveTen tenDollars), .step 0,
   .open_ (reserveTen tenEuros), .step 1, .step 1, .step 1, .step 1,
   .step 0, .step 0,
   .open_ captureTen, .step 2, .step 2]

theorem cross_currency_deadlock :
    Deadlock lockProgram (run lockStep { db := twoWallets, txs := [] } crossCurrency) :=
  deadlock_of_two (i := 0) (j := 2)
    ⟨by decide, .wallet 1, rfl, _, rfl, by decide⟩
    ⟨by decide, .reservation 0, rfl, _, rfl, by decide⟩

end Mosaic.Billing
