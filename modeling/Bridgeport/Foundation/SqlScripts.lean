import Mathlib.Data.List.Nodup

/-!
# Scripts of SQL statements

A script executes its statements one after another; a statement that fails stops it, and what the
statements before it have done stays (`runScript`).

SQLite changes a table by a `Rebuild`: a copy with the new columns is created and filled, the
original is dropped, and the copy takes its name.
-/

namespace Bridgeport.Foundation

inductive SqlError
  | noSuchTable (table : String)
  | tableExists (table : String)
  | unique (index : String)
  | notNull (column : String)

section

variable {Statement State : Type*} {exec : Statement → State → Except SqlError State}

variable (exec) in
def runScript : List Statement → State → State × Option (Statement × SqlError)
  | [], state => (state, none)
  | statement :: rest, state =>
    match exec statement state with
    | .ok after => runScript rest after
    | .error error => (state, some (statement, error))

theorem runScript_cons_of_ok {statement : Statement} {rest : List Statement} {state after : State}
    (h : exec statement state = .ok after) :
    runScript exec (statement :: rest) state = runScript exec rest after := by
  rw [runScript, h]

theorem runScript_cons_of_error {statement : Statement} {rest : List Statement} {state : State}
    {error : SqlError} (h : exec statement state = .error error) :
    runScript exec (statement :: rest) state = (state, some (statement, error)) := by
  rw [runScript, h]

/-- What follows a part of a script that completes. -/
theorem runScript_append {first second : List Statement} {state middle : State}
    (h : runScript exec first state = (middle, none)) :
    runScript exec (first ++ second) state = runScript exec second middle := by
  induction first generalizing state with
  | nil => rw [List.nil_append, (Prod.mk.inj h).1]
  | cons statement rest ih =>
    rw [List.cons_append]
    cases hexec : exec statement state with
    | ok after =>
      rw [runScript_cons_of_ok hexec] at h ⊢
      exact ih h
    | error error =>
      rw [runScript_cons_of_error hexec] at h
      exact absurd (Prod.mk.inj h).2 nofun

end

def checkUnique {Key : Type} [DecidableEq Key] (index : String) (keys : List Key) :
    Except SqlError Unit :=
  if keys.Nodup then .ok () else .error (.unique index)

variable {index : String}

theorem checkUnique_of_nodup {Key : Type} [DecidableEq Key] {keys : List Key} (h : keys.Nodup) :
    checkUnique index keys = .ok () :=
  if_pos h

inductive Rebuild (Old New : Type)
  | original (rows : List Old)
  | copying (rows : List Old) (copy : List New)
  | dropped (copy : List New)
  | rebuilt (rows : List New)

namespace Rebuild

variable {Old New : Type} (table : String)

/-- `CREATE TABLE` for the copy. -/
def createCopy : Rebuild Old New → Except SqlError (Rebuild Old New)
  | .original rows => .ok (.copying rows [])
  | _ => .error (.tableExists table)

/-- `INSERT` into the copy, which has been empty, from the original. -/
def fillCopy (select : List Old → Except SqlError (List New)) :
    Rebuild Old New → Except SqlError (Rebuild Old New)
  | .copying rows [] => (select rows).map (.copying rows)
  | _ => .error (.noSuchTable table)

/-- `DROP TABLE` for the original. -/
def dropOriginal : Rebuild Old New → Except SqlError (Rebuild Old New)
  | .copying _ copy => .ok (.dropped copy)
  | _ => .error (.noSuchTable table)

/-- `ALTER TABLE … RENAME TO` for the copy. -/
def renameCopy : Rebuild Old New → Except SqlError (Rebuild Old New)
  | .dropped copy => .ok (.rebuilt copy)
  | _ => .error (.noSuchTable table)

def newRows : Rebuild Old New → List New
  | .rebuilt rows => rows
  | _ => []

end Rebuild

end Bridgeport.Foundation
