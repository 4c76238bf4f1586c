import Syouyu.System.Alone
import Syouyu.Store.Reference

/-!
# Scripts of handlers

Runs of the service that can be computed: a choice for each call says what the world draws and
which answers are lost, and handlers make their calls in a given order.

* `World.perform`      one call, answered as the choice says; `perform_effect`;
* `System.play`        a script of moves; `System.play_run` says that it is a run;
* `AppState.reference`, `Sample`   a state of the application, and requests to write scripts with.
-/

namespace Syouyu
open Lib

/-! ## one call -/

/-- what the world draws for a call -/
structure Choice where
  env : CallEnv
  draw : Draw
  outcome : Outcome
  id : Uuid

/-- the answer to a query; both probes find everything in order -/
def Query.answer (choice : Choice) (db : Database) : (q : Query) → q.Answer
  | .utcNow => choice.env.now
  | .newUuid => choice.id
  | .select statement => statement.eval db
  | .storeHealth => .ok ()
  | .clusterHealth => .ok ⟨.healthy, 3, 256, 256⟩

theorem query_reads (choice : Choice) (db : Database) (q : Query) :
    q.Reads db (q.answer choice db) := by
  cases q <;> trivial

def World.perform (store : PgStore) (choice : Choice) (w : World) : (e : Call) → e.Answer × World
  | .store call =>
    let after := call.run store choice.env w.db
    (after.1, ⟨after.2, w.garage⟩)
  | .garage call =>
    let after := w.garage.perform choice.draw choice.outcome call
    (after.1, ⟨w.db, after.2⟩)
  | .query q => (q.answer choice w.db, w)

theorem perform_effect (store : PgStore) (choice : Choice) (w : World) (e : Call) :
    World.Effect store Garage.Documented w e (w.perform store choice e).1
      (w.perform store choice e).2 := by
  cases e with
  | store call => exact ⟨⟨choice.env, rfl⟩, rfl⟩
  | garage call => exact ⟨w.garage.perform_documented _ _ call, rfl⟩
  | query q => exact ⟨query_reads _ _ _, rfl⟩

/-! ## scripts -/

/-- a request arrives, a handler makes its next call, or a handler stops -/
abbrev Move := Pool.Turn Request Choice

namespace System
variable (store : PgStore) (state : AppState)

/-- the move, if it can be made -/
def move (s : System) (m : Move) : Option (SystemEvent × System) :=
  s.take (World.perform store) (handle state) m

/-- the moves of a script, without those that cannot be made -/
def play : List Move → System → List SystemEvent × System
  | [], s => ([], s)
  | m :: script, s =>
    match s.move store state m with
    | some (event, s') =>
      let rest := play script s'
      (event :: rest.1, rest.2)
    | none => play script s

variable {store state}

theorem move_step {s s' : System} {m : Move} {event : SystemEvent}
    (h : s.move store state m = some (event, s')) :
    SystemStep store Garage.Documented state s event s' :=
  Pool.take_step (fun _ choice _ => perform_effect store choice) h

/-- **a script is a run** -/
theorem play_run (script : List Move) (s : System) :
    Run (SystemStep store Garage.Documented state) s (play store state script s).1
      (play store state script s).2 := by
  induction script generalizing s with
  | nil => exact .nil _
  | cons m script ih =>
    unfold play
    split
    · rename_i event s' h
      exact .cons (move_step h) (ih s')
    · exact ih s

/-- the call of Garage that handler `i` makes next -/
def nextGarage (s : System) (i : Nat) : Option GarageCall :=
  match s.threads[i]? with
  | some ⟨_, _, some (.ask (.garage call) _)⟩ => some call
  | _ => none

/-- the move of a handler that makes a call of Garage next -/
theorem garage_act {s : System} {i : Nat} {call : GarageCall} (h : s.nextGarage i = some call)
    (choice : Choice) :
    SystemStep store Garage.Documented state s
      (.act i (.garage call) (s.world.garage.perform choice.draw choice.outcome call).1)
      (play store state [.act i choice] s).2 := by
  unfold nextGarage at h
  split at h
  · rename_i request log call' next hi
    obtain rfl := Option.some.inj h
    obtain ⟨s', hmove⟩ : ∃ s', s.move store state (.act i choice) = some (.act i (.garage call')
        (s.world.garage.perform choice.draw choice.outcome call').1, s') := by
      simp only [move, Pool.take, hi]
      exact ⟨_, rfl⟩
    simp only [play, hmove]
    exact move_step hmove
  · cases h

end System

/-! ## requests to write scripts with -/

/-- the hexadecimal digits of a text, without its hyphens -/
def parseHex (text : String) : Option Uuid :=
  let digits := text.toList.filter fun c => c != '-'
  if digits.all fun c => c.isDigit || ('a' ≤ c && c ≤ 'f') then
    some (BitVec.ofNat 128 (digits.foldl (fun n c =>
      16 * n + (if c.isDigit then c.toNat - 48 else c.toNat - 87)) 0))
  else none

/-- a state of the application; its digest is the number that the bytes spell -/
def AppState.reference : AppState where
  storageRegion := "eu-1"
  s3Endpoint := "s3.example"
  sha256 bytes := BitVec.ofNat 256 (bytes.foldl (fun n b => 257 * n + b.toNat) 0)
  toVec := Code.value
  formatTime := toString
  parseUuid := parseHex

/-- the response of an execution that succeeded -/
def Attempt.response? (a : Attempt) : Option Response := a.rest.result?.bind Except.toOption

namespace Sample

def headers (key : Uuid) : Headers := ⟨some (some key.toString), some (some "request")⟩

def claims (key service : Uuid) (generation : Int64) : ProviderClaims where
  subject := 3
  organizationId := 1
  projectId := 2
  serviceInstanceId := service
  generation := generation
  jwtId := key

def principal (service : Uuid) : Principal where
  scope := ⟨1, 2, service⟩
  principalId := 3
  permissions := [credentialCreatePermission, credentialRevokePermission]
  credentialLimits := ⟨2, 3⟩
  contextId := 4

def reconcileRequest (key service : Uuid) (bucketName : String) (generation : Int64)
    (quotaBytes quotaObjects : UInt64) : Request :=
  .reconcile (.ok (claims key service generation)) service (headers key)
    ⟨generation, "name", ⟨"eu-1", bucketName, quotaBytes, quotaObjects⟩⟩

def deleteRequest (key service : Uuid) (generation : Int64) : Request :=
  .delete (.ok (claims key service generation)) service ⟨generation⟩ (headers key)

def createRequest (key service : Uuid) (name : String) : Request :=
  .createCredential (.ok (principal service)) (headers key) ⟨name, ⟨true, false⟩⟩

/-- an empty bucket, and a name for what is new -/
def draw (id : String) : Draw := ⟨id, some "secret", 0, 0, 0, 0, 0⟩

/-- the choice for a call made `at_` seconds in, with fresh ids told apart by `n` -/
def choice (at_ n : Nat) (id : String) (outcome : Outcome) : Choice :=
  ⟨env at_ n, draw id, outcome, BitVec.ofNat 128 (4000 + n)⟩

/-- handler `i` makes `calls` calls; what Garage makes meanwhile is called `id` -/
def go (i at_ n calls : Nat) (id : String) : List Move :=
  (List.range calls).map fun j => .act i (choice at_ (n + j) id .served)

/-- service 10 gets the bucket `b` -/
def opened : List Move :=
  .spawn (reconcileRequest 100 10 "bucket-a" 1 1000 10) :: go 0 1 1 7 "b"

/-- then credential 2010 with the key `k` -/
def keyed : List Move := opened ++ .spawn (createRequest 101 10 "key") :: go 1 2 10 8 "k"

/-- the service as a script leaves it, beside a Garage that was empty -/
def after (script : List Move) : System :=
  (System.play PgStore.reference AppState.reference script (System.start Garage.empty)).2

/-- choices for the calls of a handler; what Garage makes meanwhile is called `id` -/
def choices (at_ n calls : Nat) (id : String) : List Choice :=
  (List.range calls).map fun j => choice at_ (n + j) id .served

/-- the handler of a request, alone -/
def played (r : Request) (choices : List Choice) (w : World) :
    CallLog × World × HandlerM ApiError Response :=
  Prog.play (World.perform PgStore.reference) choices (handle AppState.reference r) w

section
variable (r : Request) (choices : List Choice) (w : World)

/-- the execution of a request -/
def attempt : Attempt := ⟨r, (played r choices w).1, (played r choices w).2.2⟩

/-- the world that the execution leaves -/
def left : World := (played r choices w).2.1

theorem attempt_step : AttemptStep PgStore.reference Garage.Documented AppState.reference w
    (attempt r choices w) (left r choices w) :=
  Prog.play_runs (perform_effect _) _ _ _

end

/-- a reconcile of service 10 -/
def quotas (key : Uuid) (generation : Int64) (bytes objects : UInt64) : Request :=
  reconcileRequest key 10 "bucket-a" generation bytes objects

/-- service 10 has the bucket `b` -/
def reconciled : World := left (quotas 100 1 1000 10) (choices 1 1 7 "b") ⟨.empty, .empty⟩

end Sample

end Syouyu
