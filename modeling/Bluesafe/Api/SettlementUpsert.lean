import Bluesafe.Api.Repository

/-!
# The touch of the settlements in the database

`touchSettlementsOnLedgerClose` of `repository/postgres-repository.ts`, one `INSERT` with
`ON CONFLICT (contract_id, period_year, period_month) DO UPDATE`, over the table of migrations
`009_settlements.sql` and `012_v7_settlement_financials.sql`. The statement fails as a whole when
a value does not fit its column, a row violates the check of the month, or a new row has the
primary key of another one; it returns the number of rows it inserted or updated.
-/

namespace Bluesafe.Api

open Bluesafe.Ops (Contract)

/-- The id of a new row: `regexp_replace` puts one underscore for each character. -/
def pgSettlementId (contractId : String) (year month : Nat) : String :=
  let safe := contractId.toList.map fun c => if c.isAlphanum || c = '_' then c else '_'
  "stl_" ++ String.ofList safe ++ "_" ++ toString year ++ "_" ++ toString month

/-- The year is an `int`, the month passes the check of its column, and the ledger index is a
    `bigint`. -/
def TouchParams.fits (p : TouchParams) : Bool :=
  decide (p.periodYear < 2147483648) && decide (1 ≤ p.periodMonth) && decide (p.periodMonth ≤ 12) &&
    decide (-9223372036854775808 ≤ p.ledgerIndex) && decide (p.ledgerIndex < 9223372036854775808)

/-- The row of the contract for the period. -/
def SettlementRecord.isOf (r : SettlementRecord) (contractId : String) (p : TouchParams) : Bool :=
  decide (r.contractId = contractId) && decide (r.periodYear = p.periodYear) &&
    decide (r.periodMonth = p.periodMonth)

/-- One row of the `SELECT`; an archived row is updated to itself. -/
def pgTouchOne (p : TouchParams) (acc : Table SettlementRecord.id × Nat) (c : Contract) :
    Option (Table SettlementRecord.id × Nat) :=
  if p.fits then
    match acc.1.rows.find? fun r => r.isOf c.id p with
    | some row =>
      if row.status = .archived then some (acc.1, acc.2 + 1)
      else if row.ledgerCloseCount + 1 < 2147483648 then some (acc.1.set (row.touched p), acc.2 + 1)
      else none
    | none =>
      let id := pgSettlementId c.id p.periodYear p.periodMonth
      match acc.1.get? id with
      | some _ => none
      | none => some (acc.1.set (freshSettlement id c.id p), acc.2 + 1)
  else none

/-- `touchSettlementsOnLedgerClose` of the database; `none` when the statement fails. -/
def Store.pgTouchSettlements (s : Store) (p : TouchParams) :
    Option (Table SettlementRecord.id × Nat) :=
  (s.ops.contracts.rows.filter isEligible).foldlM (pgTouchOne p) (s.settlements, 0)

end Bluesafe.Api
