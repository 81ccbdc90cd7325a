/-
Wallet and ledger conservation: no call, in any order, creates or loses
money.

# The law

`Conserved initial db` relates the tables to the wallets they started
from. Per wallet: the reserved counter is the sum of the pending holds,
it stays within the balance, and the balance has moved by exactly the
debits of the ledger. Per reservation: the ledger holds the rows its
status calls for and no other.

# The induction

The law alone is not inductive. `BillingInv` adds what the steps rely
on: a hold is positive, it sits on an existing wallet, and no ledger
row names a reservation that does not exist yet. Each constructor of
`Writes` touches one wallet and one reservation, so each preservation
lemma is the touched row against the frame.
-/
import Mosaic.Billing.Proofs.Writes

namespace Mosaic.Billing

open Lib

variable {initial db db' : Db}

-- =============================================================== the law

/-- What a reservation contributes to the pending sum of a wallet. -/
def pendingOf (walletId : Nat) (r : BalanceReservation) : Int :=
  if r.walletAccountId = walletId ∧ r.status = .pending then r.amountMinor else 0

/-- What a ledger row contributes to the debits of a wallet. -/
def debitOf (walletId : Nat) (e : LedgerEntry) : Int :=
  if e.walletAccountId = walletId ∧ e.entryType = .debit then e.amountMinor else 0

/-- The ledger rows of a reservation, in the order they were written. -/
def entriesOf (db : Db) (id : Nat) : List LedgerEntry :=
  db.ledger.rows.filter fun e => e.reservationId == some id

/-- A positive amount as one row, a zero one as none. -/
def rowIfPos (kind : EntryType) (amount : Int) : List (EntryType × Int) :=
  if amount > 0 then [(kind, amount)] else []

/-- The ledger rows the status of a reservation calls for. -/
def expectedEntries (r : BalanceReservation) : List (EntryType × Int) :=
  (EntryType.hold, r.amountMinor) ::
    match r.status with
    | .pending => []
    | .committed =>
        let captured := r.capturedAmountMinor.getD 0
        rowIfPos .debit captured ++ rowIfPos .release (r.amountMinor - captured)
    | .released => [(.release, r.amountMinor)]
    | .expired => []

/-- Money is conserved between the opening tables and `db`. -/
structure Conserved (initial db : Db) : Prop where
  /-- No wallet appears or disappears. -/
  wallets : db.wallets.nextId = initial.wallets.nextId
  /-- The reserved counter is the sum of the pending holds. -/
  reserved : ∀ id w, db.wallets.get id = some w →
    w.reservedMinor = db.reservations.total (pendingOf id)
  /-- The reserved counter stays within the balance. -/
  bounds : ∀ id w, db.wallets.get id = some w →
    0 ≤ w.reservedMinor ∧ w.reservedMinor ≤ w.balanceMinor
  /-- The balance has moved by the debits of the ledger. -/
  balance : ∀ id w w₀, db.wallets.get id = some w → initial.wallets.get id = some w₀ →
    w.balanceMinor = w₀.balanceMinor - db.ledger.total (debitOf id)
  /-- A reservation's ledger rows are the ones its status calls for. -/
  entries : ∀ id r, db.reservations.get id = some r →
    (entriesOf db id).map (fun e => (e.entryType, e.amountMinor)) = expectedEntries r
  /-- They all sit on the reservation's wallet. -/
  entryWallet : ∀ id r, db.reservations.get id = some r →
    ∀ e ∈ entriesOf db id, e.walletAccountId = r.walletAccountId
  /-- A committed reservation records a capture between nothing and the
  whole hold; no other status exists than the three the law speaks of. -/
  settled : ∀ id r, db.reservations.get id = some r →
    r.status = .pending ∨ r.status = .released ∨
      (r.status = .committed ∧
        ∃ c, r.capturedAmountMinor = some c ∧ 0 ≤ c ∧ c ≤ r.amountMinor)

/-- The tables a run starts from: no reservation, nothing reserved, and
a ledger of top-ups only. -/
structure Opening (db : Db) : Prop where
  reservations : db.reservations = Table.empty
  wallets : ∀ id w, db.wallets.get id = some w →
    w.reservedMinor = 0 ∧ 0 ≤ w.balanceMinor
  ledger : ∀ e ∈ db.ledger.rows, e.reservationId = none ∧ e.entryType ≠ .debit

-- ============================================================= invariant

/-- The law with what its induction needs. -/
structure BillingInv (initial db : Db) : Prop extends Conserved initial db where
  positive : ∀ id r, db.reservations.get id = some r → 0 < r.amountMinor
  walletOf : ∀ id r, db.reservations.get id = some r →
    ∃ w, db.wallets.get r.walletAccountId = some w
  known : ∀ e ∈ db.ledger.rows, ∀ id, e.reservationId = some id →
    id < db.reservations.nextId

/-- The opening tables satisfy the invariant: every sum is empty. -/
theorem Opening.inv (h : Opening initial) : BillingInv initial initial := by
  have hnone : ∀ id, initial.reservations.get id = none := by
    intro id
    rw [h.reservations]
    exact Table.get_empty id
  have hdebit : ∀ id, initial.ledger.total (debitOf id) = 0 := by
    intro id
    refine List.sum_eq_zero fun x hx => ?_
    obtain ⟨e, he, rfl⟩ := List.mem_map.mp hx
    rw [debitOf, if_neg fun hc => (h.ledger e he).2 hc.2]
  refine { wallets := rfl, reserved := ?_, bounds := ?_, balance := ?_
           entries := ?_, entryWallet := ?_, settled := ?_, positive := ?_
           walletOf := ?_, known := ?_ }
  · intro id w hw
    rw [(h.wallets id w hw).1, h.reservations]
    rfl
  · intro id w hw
    have := h.wallets id w hw
    omega
  · intro id w w₀ hw hw₀
    rw [hw] at hw₀
    obtain rfl := Option.some.inj hw₀
    rw [hdebit id]
    omega
  · intro id r hr
    simp [hnone] at hr
  · intro id r hr
    simp [hnone] at hr
  · intro id r hr
    simp [hnone] at hr
  · intro id r hr
    simp [hnone] at hr
  · intro id r hr
    simp [hnone] at hr
  · intro e he id hid
    simp [(h.ledger e he).1] at hid

/-- A pending hold is a part of its wallet's sum. -/
theorem BillingInv.pending_le (h : BillingInv initial db) {id : Nat}
    {r : BalanceReservation} (hr : db.reservations.get id = some r)
    (walletId : Nat) :
    pendingOf walletId r ≤ db.reservations.total (pendingOf walletId) := by
  refine Table.le_total hr fun j r' hj => ?_
  have := h.positive j r' hj
  unfold pendingOf
  split
  · omega
  · exact le_refl 0

-- ========================================================= ledger views

/-- A row of another reservation does not show in a reservation's view. -/
theorem entriesOf_append_other {l : Table LedgerEntry} {rows : List LedgerEntry}
    {id : Nat} (hl : l.rows = db.ledger.rows ++ rows)
    (hother : ∀ e ∈ rows, e.reservationId ≠ some id)
    (hdb : db'.ledger = l) : entriesOf db' id = entriesOf db id := by
  unfold entriesOf
  rw [hdb, hl, List.filter_append]
  have : rows.filter (fun e => e.reservationId == some id) = [] := by
    refine List.filter_eq_nil_iff.mpr fun e he => ?_
    simpa using hother e he
  rw [this, List.append_nil]

/-- Its own rows show at the end. -/
theorem entriesOf_append_self {l : Table LedgerEntry} {rows : List LedgerEntry}
    {id : Nat} (hl : l.rows = db.ledger.rows ++ rows)
    (hself : ∀ e ∈ rows, e.reservationId = some id)
    (hdb : db'.ledger = l) : entriesOf db' id = entriesOf db id ++ rows := by
  unfold entriesOf
  rw [hdb, hl, List.filter_append]
  congr 1
  exact List.filter_eq_self.mpr fun e he => by simp [hself e he]

/-- A reservation that does not exist yet has no rows. -/
theorem entriesOf_fresh (h : BillingInv initial db) :
    entriesOf db db.reservations.nextId = [] := by
  refine List.filter_eq_nil_iff.mpr fun e he => ?_
  intro hid
  exact absurd (h.known e he _ (by simpa using hid)) (lt_irrefl _)

-- ======================================================= the four writes

/-- The law does not read the usage table. -/
theorem BillingInv.usage (h : BillingInv initial db) (us : Table UsageRecord) :
    BillingInv initial { db with usageRecords := us } :=
  ⟨⟨h.wallets, h.reserved, h.bounds, h.balance, h.entries, h.entryWallet,
    h.settled⟩, h.positive, h.walletOf, h.known⟩

/-- A hold raises one counter by one pending amount and books it. -/
theorem BillingInv.hold (h : BillingInv initial db) {walletId : Nat}
    {w : WalletAccount} {q : ReserveRequest}
    (hw : db.wallets.get walletId = some w) (hpos : 0 < q.amount.amountMinor)
    (hfits : w.reservedMinor + q.amount.amountMinor ≤ w.balanceMinor) :
    BillingInv initial (openHold db walletId w q).2 := by
  have hrows : (openHold db walletId w q).2.ledger.rows
      = db.ledger.rows ++ [ledgerEntry q.tenantId walletId db.reservations.nextId
          .hold q.amount.amountMinor w.currency "hold"] := rfl
  have hold_view : ∀ id r, db.reservations.get id = some r →
      entriesOf (openHold db walletId w q).2 id = entriesOf db id := by
    intro id r hr
    refine entriesOf_append_other hrows ?_ rfl
    have := Table.lt_nextId hr
    simp only [List.mem_singleton, forall_eq, ledgerEntry, ne_eq, Option.some.injEq]
    omega
  have fresh_view : entriesOf (openHold db walletId w q).2 db.reservations.nextId
      = [ledgerEntry q.tenantId walletId db.reservations.nextId
          .hold q.amount.amountMinor w.currency "hold"] := by
    rw [entriesOf_append_self hrows (by simp [ledgerEntry]) rfl, entriesOf_fresh h]
    rfl
  refine { wallets := ?_, reserved := ?_, bounds := ?_, balance := ?_
           entries := ?_, entryWallet := ?_, settled := ?_, positive := ?_
           walletOf := ?_, known := ?_ }
  · simpa [openHold] using h.wallets
  · intro id w' hw'
    simp only [openHold, Table.total_insert, pendingOf, and_true] at hw' ⊢
    obtain ⟨rfl, w₁, hw₁, rfl⟩ | ⟨hne, hw'⟩ := Table.get_modify_cases hw'
    · rw [if_pos rfl, h.reserved _ _ hw₁]
    · rw [if_neg fun he => hne he.symm, h.reserved _ _ hw']
      simp
  · intro id w' hw'
    simp only [openHold] at hw'
    obtain ⟨rfl, w₁, hw₁, rfl⟩ | ⟨-, hw'⟩ := Table.get_modify_cases hw'
    · obtain rfl := Option.some.inj (hw.symm.trans hw₁)
      have := h.bounds _ _ hw
      constructor
      · simp only
        omega
      · exact hfits
    · exact h.bounds _ _ hw'
  · intro id w' w₀ hw' hw₀
    have hdebit : (openHold db walletId w q).2.ledger.total (debitOf id)
        = db.ledger.total (debitOf id) := by
      simp [openHold, debitOf, ledgerEntry]
    rw [hdebit]
    simp only [openHold] at hw'
    obtain ⟨rfl, w₁, hw₁, rfl⟩ | ⟨-, hw'⟩ := Table.get_modify_cases hw'
    · exact h.balance id w₁ w₀ hw₁ hw₀
    · exact h.balance _ _ _ hw' hw₀
  · intro id r hr
    obtain ⟨rfl, rfl⟩ | hr := Table.get_insert_cases hr
    · rw [fresh_view]
      rfl
    · rw [hold_view id r hr, h.entries id r hr]
  · intro id r hr
    obtain ⟨rfl, rfl⟩ | hr := Table.get_insert_cases hr
    · rw [fresh_view]
      simp [ledgerEntry]
    · rw [hold_view id r hr]
      exact h.entryWallet id r hr
  · intro id r hr
    obtain ⟨rfl, rfl⟩ | hr := Table.get_insert_cases hr
    · exact Or.inl rfl
    · exact h.settled id r hr
  · intro id r hr
    obtain ⟨rfl, rfl⟩ | hr := Table.get_insert_cases hr
    · simpa using hpos
    · exact h.positive id r hr
  · intro id r hr
    obtain ⟨rfl, rfl⟩ | hr := Table.get_insert_cases hr
    · exact Table.get_modify_of_some hw _ _
    · obtain ⟨w₁, hw₁⟩ := h.walletOf id r hr
      exact Table.get_modify_of_some hw₁ _ _
  · intro e he id hid
    rw [hrows, List.mem_append] at he
    simp only [openHold, Table.nextId_insert]
    cases he with
    | inl he =>
        have := h.known e he id hid
        omega
    | inr he =>
        rw [List.mem_singleton] at he
        subst he
        simp only [ledgerEntry, Option.some.injEq] at hid
        omega

/-- What the two settlements have in common: the hold `r` leaves pending,
its wallet gives up the amount and pays `charged`, and `rows` are booked
for it. -/
structure Settles (id : Nat) (r : BalanceReservation) (charged : Int)
    (fw : WalletAccount → WalletAccount)
    (fr : BalanceReservation → BalanceReservation) (rows : List LedgerEntry) :
    Prop where
  nonneg : 0 ≤ charged
  le : charged ≤ r.amountMinor
  reserved : ∀ w, (fw w).reservedMinor = w.reservedMinor - r.amountMinor
  balance : ∀ w, (fw w).balanceMinor = w.balanceMinor - charged
  amount : (fr r).amountMinor = r.amountMinor
  wallet : (fr r).walletAccountId = r.walletAccountId
  final : (fr r).status = .released ∨ ((fr r).status = .committed
    ∧ (fr r).capturedAmountMinor = some charged)
  owner : ∀ e ∈ rows, e.reservationId = some id
    ∧ e.walletAccountId = r.walletAccountId
  booked : (EntryType.hold, r.amountMinor)
      :: rows.map (fun e => (e.entryType, e.amountMinor)) = expectedEntries (fr r)
  debits : ∀ walletId, (rows.map (debitOf walletId)).sum
    = if r.walletAccountId = walletId then charged else 0

/-- A settlement of a pending hold keeps the books. -/
theorem BillingInv.settle (h : BillingInv initial db) {id : Nat}
    {r : BalanceReservation} {charged : Int} {fw : WalletAccount → WalletAccount}
    {fr : BalanceReservation → BalanceReservation} {rows : List LedgerEntry}
    (hr : db.reservations.get id = some r) (hpending : r.status = .pending)
    (hs : Settles id r charged fw fr rows)
    (hwallets : db'.wallets = db.wallets.modify r.walletAccountId fw)
    (hreservations : db'.reservations = db.reservations.modify id fr)
    (hledger : db'.ledger = rows.foldl Table.insert db.ledger) :
    BillingInv initial db' := by
  have hrows : (rows.foldl Table.insert db.ledger).rows = db.ledger.rows ++ rows :=
    Table.rows_foldl_insert _ _
  have hamount := h.positive id r hr
  have hnotPending : (fr r).status ≠ .pending := by
    cases hs.final with
    | inl hf => simp [hf]
    | inr hf => simp [hf.1]
  have htotal : ∀ walletId, db'.reservations.total (pendingOf walletId)
      = db.reservations.total (pendingOf walletId)
        - (if r.walletAccountId = walletId then r.amountMinor else 0) := by
    intro walletId
    have hr0 : pendingOf walletId (fr r) = 0 := if_neg fun hc => hnotPending hc.2
    rw [hreservations, Table.total_modify hr, hr0, pendingOf]
    simp [hpending]
  have other_view : ∀ j, j ≠ id → entriesOf db' j = entriesOf db j := by
    intro j hj
    refine entriesOf_append_other hrows (fun e he => ?_) hledger
    rw [(hs.owner e he).1]
    simpa using fun he => hj he.symm
  have self_view : entriesOf db' id = entriesOf db id ++ rows :=
    entriesOf_append_self hrows (fun e he => (hs.owner e he).1) hledger
  -- a reservation read after the settlement is the settled one or another
  have cases : ∀ j r', db'.reservations.get j = some r' →
      (j = id ∧ r' = fr r) ∨ (j ≠ id ∧ db.reservations.get j = some r') := by
    intro j r' hr'
    rw [hreservations] at hr'
    obtain ⟨rfl, r₁, hr₁, rfl⟩ | hframe := Table.get_modify_cases hr'
    · obtain rfl := Option.some.inj (hr.symm.trans hr₁)
      exact Or.inl ⟨rfl, rfl⟩
    · exact Or.inr hframe
  refine { wallets := ?_, reserved := ?_, bounds := ?_, balance := ?_
           entries := ?_, entryWallet := ?_, settled := ?_, positive := ?_
           walletOf := ?_, known := ?_ }
  · rw [hwallets, Table.nextId_modify]
    exact h.wallets
  · intro j w' hw'
    rw [hwallets] at hw'
    obtain ⟨rfl, w₁, hw₁, rfl⟩ | ⟨hne, hw'⟩ := Table.get_modify_cases hw'
    · rw [htotal, if_pos rfl, hs.reserved, h.reserved _ _ hw₁]
    · rw [htotal, if_neg fun he => hne he.symm, h.reserved _ _ hw']
      omega
  · intro j w' hw'
    rw [hwallets] at hw'
    obtain ⟨rfl, w₁, hw₁, rfl⟩ | ⟨-, hw'⟩ := Table.get_modify_cases hw'
    · -- the hold being settled is one of the summands of the counter
      have hpart : pendingOf r.walletAccountId r = r.amountMinor :=
        if_pos ⟨rfl, hpending⟩
      have hsum : r.amountMinor ≤ w₁.reservedMinor := by
        rw [h.reserved _ _ hw₁, ← hpart]
        exact h.pending_le hr r.walletAccountId
      have hb := h.bounds _ _ hw₁
      have hnn := hs.nonneg
      have hle := hs.le
      rw [hs.reserved, hs.balance]
      omega
    · exact h.bounds _ _ hw'
  · intro j w' w₀ hw' hw₀
    rw [hwallets] at hw'
    rw [hledger, Table.total_foldl_insert, hs.debits]
    obtain ⟨rfl, w₁, hw₁, rfl⟩ | ⟨hne, hw'⟩ := Table.get_modify_cases hw'
    · rw [if_pos rfl, hs.balance, h.balance _ w₁ w₀ hw₁ hw₀]
      omega
    · rw [if_neg fun he => hne he.symm, h.balance _ w' w₀ hw' hw₀]
      omega
  · intro j r' hr'
    obtain ⟨rfl, rfl⟩ | ⟨hne, hr'⟩ := cases j r' hr'
    · rw [self_view, List.map_append, h.entries j r hr, ← hs.booked]
      simp [expectedEntries, hpending]
    · rw [other_view j hne, h.entries j r' hr']
  · intro j r' hr'
    obtain ⟨rfl, rfl⟩ | ⟨hne, hr'⟩ := cases j r' hr'
    · intro e he
      rw [self_view, List.mem_append] at he
      rw [hs.wallet]
      cases he with
      | inl he => exact h.entryWallet j r hr e he
      | inr he => exact (hs.owner e he).2
    · rw [other_view j hne]
      exact h.entryWallet j r' hr'
  · intro j r' hr'
    obtain ⟨rfl, rfl⟩ | ⟨hne, hr'⟩ := cases j r' hr'
    · cases hs.final with
      | inl hf => exact Or.inr (Or.inl hf)
      | inr hf =>
          refine Or.inr (Or.inr ⟨hf.1, charged, hf.2, hs.nonneg, ?_⟩)
          rw [hs.amount]
          exact hs.le
    · exact h.settled j r' hr'
  · intro j r' hr'
    obtain ⟨rfl, rfl⟩ | ⟨hne, hr'⟩ := cases j r' hr'
    · rw [hs.amount]
      exact hamount
    · exact h.positive j r' hr'
  · intro j r' hr'
    rw [hwallets]
    obtain ⟨rfl, rfl⟩ | ⟨hne, hr'⟩ := cases j r' hr'
    · obtain ⟨w₁, hw₁⟩ := h.walletOf j r hr
      rw [hs.wallet]
      exact Table.get_modify_of_some hw₁ _ _
    · obtain ⟨w₁, hw₁⟩ := h.walletOf j r' hr'
      exact Table.get_modify_of_some hw₁ _ _
  · intro e he j hj
    rw [hreservations, Table.nextId_modify]
    rw [hledger, hrows, List.mem_append] at he
    cases he with
    | inl he => exact h.known e he j hj
    | inr he =>
        obtain rfl := Option.some.inj ((hs.owner e he).1.symm.trans hj)
        exact Table.lt_nextId hr

/-- The rows of a capture are its reservation's, on its wallet. -/
theorem captureEntries_owner {tenantId walletId id : Nat} {currency : String}
    {d : CaptureDecision} {e : LedgerEntry}
    (he : e ∈ captureEntries tenantId walletId id currency d) :
    e.reservationId = some id ∧ e.walletAccountId = walletId := by
  simp only [captureEntries, List.mem_append] at he
  cases he with
  | inl he =>
      obtain ⟨-, rfl⟩ := List.mem_ite_nil_right.mp he |>.imp_right List.mem_singleton.mp
      exact ⟨rfl, rfl⟩
  | inr he =>
      obtain ⟨-, rfl⟩ := List.mem_ite_nil_right.mp he |>.imp_right List.mem_singleton.mp
      exact ⟨rfl, rfl⟩

/-- They debit the charge, whether or not it is booked as a row. -/
theorem captureEntries_debits {tenantId walletId id : Nat} {currency : String}
    {d : CaptureDecision} (hcharged : 0 ≤ d.chargedMinor) :
    ((captureEntries tenantId walletId id currency d).map (debitOf walletId)).sum
      = d.chargedMinor := by
  have hdebit : ((if d.chargedMinor > 0 then
      [ledgerEntry tenantId walletId id .debit d.chargedMinor currency "debit"]
      else []).map (debitOf walletId)).sum = d.chargedMinor := by
    split
    · simp [debitOf, ledgerEntry]
    · next hzero =>
        simp only [List.map_nil, List.sum_nil]
        omega
  have hrelease : ((if d.releasedMinor > 0 then
      [ledgerEntry tenantId walletId id .release d.releasedMinor currency "release"]
      else []).map (debitOf walletId)).sum = 0 := by
    split
    · simp [debitOf, ledgerEntry]
    · rfl
  rw [captureEntries, List.map_append, List.sum_append, hdebit, hrelease, add_zero]

/-- A capture settles: it debits the charge and releases the rest. -/
theorem settles_capture {now tenantId id : Nat} {r : BalanceReservation}
    {d : CaptureDecision} {currency : String} (hcharged : 0 ≤ d.chargedMinor)
    (hle : d.chargedMinor ≤ r.amountMinor)
    (hsplit : d.releasedMinor = r.amountMinor - d.chargedMinor) :
    Settles id r d.chargedMinor
      (fun w => { w with reservedMinor := w.reservedMinor - r.amountMinor
                         balanceMinor := w.balanceMinor - d.chargedMinor
                         version := w.version + 1 })
      (fun r => { r with status := .committed
                         capturedAmountMinor := some d.chargedMinor
                         committedAt := some now })
      (captureEntries tenantId r.walletAccountId id currency d) := by
  refine { nonneg := hcharged, le := hle, reserved := fun _ => rfl
           balance := fun _ => rfl, amount := rfl, wallet := rfl
           final := Or.inr ⟨rfl, rfl⟩, owner := fun _ => captureEntries_owner
           booked := ?_, debits := ?_ }
  · simp only [expectedEntries, captureEntries, rowIfPos, hsplit, Option.getD_some,
      List.map_append]
    congr 2
    · split <;> rfl
    · split <;> rfl
  · intro walletId
    split
    · next hw =>
        subst hw
        exact captureEntries_debits hcharged
    · next hw =>
        refine List.sum_eq_zero fun x hx => ?_
        obtain ⟨e, he, rfl⟩ := List.mem_map.mp hx
        exact if_neg fun hc => hw ((captureEntries_owner he).2.symm.trans hc.1)

/-- A release settles: it charges nothing and releases the whole hold. -/
theorem settles_release {now tenantId id : Nat} {r : BalanceReservation}
    {d : ReleaseDecision} {currency : String} (hpos : 0 < r.amountMinor)
    (hfull : d.releasedMinor = r.amountMinor) :
    Settles id r 0
      (fun w => { w with reservedMinor := w.reservedMinor - r.amountMinor
                         version := w.version + 1 })
      (fun r => { r with status := .released, releasedAt := some now })
      [ledgerEntry tenantId r.walletAccountId id .release d.releasedMinor currency
        "release"] where
  nonneg := le_refl 0
  le := hpos.le
  reserved := fun _ => rfl
  balance := fun w => (sub_zero w.balanceMinor).symm
  amount := rfl
  wallet := rfl
  final := Or.inl rfl
  owner := by simp [ledgerEntry]
  booked := by simp [expectedEntries, ledgerEntry, hfull]
  debits := by simp [debitOf, ledgerEntry]

-- ============================================================== the runs

/-- One write keeps the invariant. -/
theorem BillingInv.writes (h : BillingInv initial db) (hw : Writes db db') :
    BillingInv initial db' := by
  cases hw with
  | usage us => exact h.usage us
  | hold walletId w q hw hpos hfits => exact h.hold hw hpos hfits
  | capture now tenantId id r w d us hr hpending hw hcharged hle hsplit =>
      exact h.settle hr hpending (settles_capture hcharged hle hsplit) rfl rfl rfl
  | release now tenantId id r w d hr hpending hw hfull =>
      exact h.settle hr hpending (settles_release (h.positive id r hr) hfull)
        rfl rfl rfl

/-- Every run of calls from opening tables keeps the invariant. -/
theorem inv_run (h : Opening initial) (calls : List Call) :
    BillingInv initial (run step initial calls) :=
  run_invariant (fun db call hinv => hinv.writes (step_writes db call)) h.inv calls

/-- Money is conserved by every sequence of reserve, capture and release
calls, whichever of them succeed, replay or fail. -/
theorem conserved_run {initial : Db} (h : Opening initial) (calls : List Call) :
    Conserved initial (run step initial calls) :=
  (inv_run h calls).toConserved

/-- One active wallet of 1000 minor units. -/
def sampleDb : Db :=
  { wallets := ⟨[{ tenantId := 7, currency := "CNY", balanceMinor := 1000
                   reservedMinor := 0, version := 1, status := .active }]⟩
    reservations := Table.empty, ledger := Table.empty, usageRecords := Table.empty }

theorem opening_sampleDb : Opening sampleDb := by
  refine ⟨rfl, fun id w hw => ?_, fun e he => ?_⟩
  · have := Table.mem_rows_of_get hw
    simp only [sampleDb, List.mem_singleton] at this
    subst this
    exact ⟨rfl, by decide⟩
  · simp [sampleDb, Table.empty] at he

/-- Two holds; the first is captured in part, the second released. -/
def sampleCalls : List Call :=
  [ .reserve 10 .none ⟨7, "job:a", 0, ⟨300, "CNY", by decide⟩, 50⟩,
    .reserve 11 .none ⟨7, "job:b", 1, ⟨600, "CNY", by decide⟩, 50⟩,
    .capture 12 .none ⟨fun _ _ => none, fun _ _ => none, fun _ => none⟩
      { tenantId := 7, reservationId := 0, actual := some ⟨120, "CNY", by decide⟩ },
    .release 13 .none 7 1 ]

theorem conserved_run_sample :
    Opening sampleDb ∧ Conserved sampleDb (run step sampleDb sampleCalls)
      ∧ (run step sampleDb sampleCalls).wallets.rows.map
          (fun w => (w.balanceMinor, w.reservedMinor)) = [(880, 0)] :=
  ⟨opening_sampleDb, conserved_run opening_sampleDb sampleCalls, by decide +kernel⟩

end Mosaic.Billing
