import FeatureTable.Proofs.Table.Build
import FeatureTable.Table.Update

namespace FeatureTable

/-! A change in place ends like the operation on tables as values.  Where that one fails, the table
is still the one before the change. -/

namespace Update

theorem bind_eq (x : ExceptT ε (StateM σ) α) (f : α → ExceptT ε (StateM σ) β) (s : σ) :
    (x >>= f) s =
      match x s with
      | (.ok a, next) => f a next
      | (.error error, next) => (.error error, next) := by
  show ExceptT.bindCont f (x s).1 (x s).2 = _
  rcases x s with ⟨outcome, next⟩
  cases outcome <;> rfl

theorem mk_pure_eq (x : Except ε α) (s : σ) :
    (ExceptT.mk (pure x) : ExceptT ε (StateM σ) α) s = (x, s) := rfl

/-- What an operation on values leaves in the place of the table. -/
def leaves (t : Table) : Except TableError Table → Except TableError Unit × Table
  | .ok u => (.ok (), u)
  | .error error => (.error error, t)

theorem leaves_eq_ok_iff {t u : Table} {x : Except TableError Table} :
    leaves t x = (.ok (), u) ↔ x = .ok u := by
  cases x with
  | ok v => simp [leaves]
  | error fault => simp [leaves]

theorem leaves_eq_error_iff {t after : Table} {x : Except TableError Table} {fault : TableError} :
    leaves t x = (.error fault, after) ↔ x = .error fault ∧ after = t := by
  cases x with
  | ok u => simp [leaves]
  | error other => simp [leaves, eq_comm]

theorem insert_eq (t : Table) (name : String) (values : Column) :
    insert name values t = leaves t (t.insert name values) := by
  by_cases hmismatch :
      0 < (if t.contains name then t.width - 1 else t.width) ∧ values.length ≠ t.height
  · rw [Table.insert, if_pos hmismatch]
    show (if _ then _ else _ : Update Unit) t = _
    rw [if_pos hmismatch]
    rfl
  · rw [Table.insert, if_neg hmismatch]
    show (if _ then _ else _ : Update Unit) t = _
    rw [if_neg hmismatch]
    rfl

theorem insert_eq_ok_iff {t u : Table} {name : String} {values : Column} :
    insert name values t = (.ok (), u) ↔ t.insert name values = .ok u := by
  rw [insert_eq, leaves_eq_ok_iff]

theorem insert_eq_error_iff {t after : Table} {name : String} {values : Column}
    {fault : TableError} :
    insert name values t = (.error fault, after) ↔
      t.insert name values = .error fault ∧ after = t := by
  rw [insert_eq, leaves_eq_error_iff]

theorem extendAt_length (before columns : List (String × Column)) (entry : String × Column)
    (values : Column) :
    extendAt before.length values ⟨before ++ entry :: columns⟩ =
      ⟨before ++ Table.extended entry values :: columns⟩ := by
  rw [extendAt, List.modify_eq_take_drop, List.take_left, List.drop_left]
  rfl

/-- The columns before the index stay as they are. -/
theorem extendFrom_eq (before : List (String × Column)) {columns : List (String × Column)}
    {incoming : List Column} (h : incoming.length = columns.length) :
    extendFrom before.length incoming ⟨before ++ columns⟩ =
      (.ok (), ⟨before ++ List.zipWith Table.extended columns incoming⟩) := by
  induction incoming generalizing before columns with
  | nil =>
      cases columns with
      | nil => rfl
      | cons => cases h
  | cons values incoming ih =>
      cases columns with
      | nil => cases h
      | cons entry columns =>
          have hlater := ih (before ++ [Table.extended entry values]) (Nat.succ.inj h)
          rw [List.length_append, List.append_assoc, List.append_assoc] at hlater
          show extendFrom (before.length + 1) incoming
            (extendAt before.length values ⟨before ++ entry :: columns⟩) = _
          rw [extendAt_length]
          exact hlater

theorem mapM_get_eq (t other : Table) (names : List String) :
    (names.mapM fun name => (ExceptT.mk (pure (other.get name)) : Update Column)) t =
      (names.mapM other.get, t) := by
  induction names with
  | nil => rfl
  | cons name names ih =>
      rw [List.mapM_cons, List.mapM_cons, bind_eq, mk_pure_eq]
      cases other.get name with
      | error error => rfl
      | ok values =>
          show ((List.mapM _ names >>= fun rest => pure (values :: rest) : Update _) t) = _
          rw [bind_eq, ih]
          cases names.mapM other.get <;> rfl

theorem append_eq (t other : Table) :
    append other t = leaves t (t.append other) := by
  cases hempty : t.isEmpty with
  | true =>
      rw [Table.append_of_isEmpty hempty]
      show (if t.isEmpty then _ else _ : Update Unit) t = _
      rw [if_pos hempty]
      rfl
  | false =>
      rw [Table.append_of_not_isEmpty hempty]
      show (if t.isEmpty then _ else _ : Update Unit) t = _
      rw [if_neg (by simp [hempty]), bind_eq, mapM_get_eq]
      cases hincoming : t.names.mapM other.get with
      | error error => rfl
      | ok incoming =>
          have hlength : incoming.length = t.columns.length := by
            rw [(other.reports_mapM_get t.names).good hincoming, List.length_map, Table.names,
              List.length_map]
          exact extendFrom_eq [] hlength

end Update

end FeatureTable
