import Syouyu.Api.Handlers
import Syouyu.Garage.Server
import Syouyu.Store.Run
import Syouyu.Lib.Pool

/-!
# The service and its surroundings

The database of the store and one Garage are the world; handlers run in it as a pool of programs.
Each call of the store is one transaction, each call of Garage one request; a query changes nothing.

* `World.Effect`     how the world answers a call and changes;
* `SystemStep`       one step of any number of handlers, which may crash at any time;
* `Granted`, `Answered`, `Removed`   what a log says: an `Execute` answer, an answer of Garage,
                     a delete that reported its object gone.
-/

set_option linter.unusedSectionVars false

namespace Syouyu
open Lib

structure World where
  db : Database
  garage : Garage

/-- a statement is answered from the database as it is; nothing is said of clock, ids and probes -/
def Query.Reads (db : Database) : (q : Query) → q.Answer → Prop
  | .select statement, answer => answer = statement.eval db
  | .utcNow, _ => True
  | .newUuid, _ => True
  | .storeHealth, _ => True
  | .clusterHealth, _ => True

/-- how the world answers a call and changes -/
def World.Effect (store : PgStore) (behaviour : GarageBehaviour) (w : World) :
    (e : Call) → e.Answer → World → Prop
  | .store call, answer, w' =>
    (∃ env, StoreStep store w.db ⟨env, call, answer⟩ w'.db) ∧ w'.garage = w.garage
  | .garage call, answer, w' => behaviour w.garage call answer w'.garage ∧ w'.db = w.db
  | .query q, answer, w' => q.Reads w.db answer ∧ w' = w

theorem World.Effect.mono {store : PgStore} {behaviour other : GarageBehaviour}
    (hrefines : behaviour.Refines other) {w w' : World} {e : Call} {a : e.Answer}
    (h : World.Effect store behaviour w e a w') : World.Effect store other w e a w' := by
  cases e with
  | store call => exact h
  | garage call => exact ⟨hrefines _ _ _ _ h.1, h.2⟩
  | query q => exact h

abbrev CallLog := Log Call Call.Answer

abbrev HandlerThread := Thread Request Call Call.Answer ApiError Response

abbrev System := Pool World Request Call Call.Answer ApiError Response

abbrev SystemEvent := Event Request Call Call.Answer

/-- one step of the handlers -/
def SystemStep (store : PgStore) (behaviour : GarageBehaviour) (state : AppState) :
    System → SystemEvent → System → Prop :=
  Pool.Step (World.Effect store behaviour) (handle state)

/-- an empty database beside any Garage, and no handler at work -/
def System.start (garage : Garage) : System := ⟨⟨.empty, garage⟩, []⟩

/-! ## what a log says -/

/-- the entry is an `Execute` answer -/
def executes : (e : Call) × e.Answer → Bool
  | ⟨.store (.prepare _), .ok (.execute _ _)⟩ => true
  | _ => false

section
variable (log : CallLog)

/-- the operation was to be executed, under this operation id and with this context -/
def Granted (call : PrepareCall) (operationId : Uuid) (context : call.Context) : Prop :=
  ⟨.store (.prepare call), Except.ok (Prepare.execute operationId context)⟩ ∈ log

/-- Garage answered the call -/
def Answered (call : GarageCall) (result : call.Result) : Prop :=
  ⟨.garage call, Except.ok result⟩ ∈ log

/-- a delete reported its object gone -/
def Removed (call : GarageCall) : Prop :=
  ∃ answer : call.Answer, GarageCall.removed answer = true ∧ ⟨.garage call, answer⟩ ∈ log

variable {log} {log' : CallLog}

theorem Granted.mono {call : PrepareCall} {o : Uuid} {context : call.Context}
    (h : Granted log call o context) (hsub : log ⊆ log') : Granted log' call o context := hsub h

theorem Answered.mono {call : GarageCall} {result : call.Result} (h : Answered log call result)
    (hsub : log ⊆ log') : Answered log' call result := hsub h

theorem Removed.mono {call : GarageCall} (h : Removed log call) (hsub : log ⊆ log') :
    Removed log' call := by
  obtain ⟨answer, hans, hmem⟩ := h
  exact ⟨answer, hans, hsub hmem⟩

end

end Syouyu
