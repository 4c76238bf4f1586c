import Syouyu.Server.Steps
import Syouyu.System.Script

/-!
# Scripts of requests

* `Gateway.reference`   a router with crates that can be run;
* `Server.play`         a script of requests, their calls and their crashes; a run (`play_run`);
* `Sample`              requests over HTTP to write scripts with, and one script with its outcome.
-/

namespace Syouyu
open Lib

/-- a router for which every token carries these claims and every context this principal -/
def Gateway.reference (claims : TokenClaims) (signed : SignedPrincipal) : Gateway Unit where
  state := .reference
  providerAuth := ⟨"issuer", "audience", [("provider-1", ())], 5⟩
  principalAuth := ⟨"issuer", "audience", List.replicate 32 0, .fromMins 5, .fromSecs 15⟩
  jwt := .carrying claims
  crates := .carrying signed
  extractors :=
    { pathUuid := fun text => okOr (parseHex text) "not a UUID"
      deleteQuery := fun _ => .ok ⟨claims.generation⟩
      reconcileJson := fun _ =>
        .ok ⟨claims.generation, "name", ⟨"eu-1", "bucket-a", 1000, 10⟩⟩
      createJson := fun _ => .ok ⟨"key", ⟨true, false⟩⟩ }
  docs _ := live

abbrev ServerTurn := Pool.Turn Arrival Choice

def Server.play {Key : Type} (store : PgStore) (gw : Gateway Key) :
    List ServerTurn → Server → Option (List ServerEvent × Server) :=
  Pool.play (World.perform store) gw.serve

theorem Server.play_run {Key : Type} {store : PgStore} {gw : Gateway Key}
    {script : List ServerTurn} {s s' : Server} {tr : List ServerEvent}
    (h : Server.play store gw script s = some (tr, s')) :
    Run (ServerStep store Garage.Documented gw) s tr s' :=
  Pool.play_run (perform_effect store) h

theorem receive_read {Key : Type} {gw : Gateway Key} {a : Arrival} {read : Read}
    (h : endpoint a.request = .read read) :
    gw.receive a = .ok (.read ⟨read, gw.principal a, a.headers⟩) := by
  rw [Gateway.receive, h]

theorem rest_of_result {t : Thread Arrival Call Call.Answer ApiError Response}
    {result : Except ApiError Response} (h : t.rest.bind Prog.result? = some result) :
    t.rest = some (.done result) := by
  obtain ⟨p, hp, hdone⟩ := Option.bind_eq_some_iff.mp h
  exact Prog.eq_done_of_result hdone ▸ hp

namespace Sample

/-- the claims of a token to reconcile service 10 -/
def tokenClaims : TokenClaims where
  toProviderClaims := claims 100 10 1
  issuer := "issuer"
  audience := "audience"
  action := providerReconcileAction
  issuedAt := 1000
  notBefore := 995
  expiresAt := 1060

/-- a principal of service 10 that may read and issue -/
def signedPrincipal : SignedPrincipal where
  issuer := "issuer"
  audience := "audience"
  scope := ⟨1, 2, 10⟩
  principalId := 3
  permissions := [credentialCreatePermission, credentialReadPermission, overviewReadPermission]
  credentialLimits := ⟨1, 2⟩
  issuedAt := 1000
  expiresAt := 1300
  contextId := 4

def gateway : Gateway Unit := .reference tokenClaims signedPrincipal

def arrival (method : Method) (path : List String) (key : Uuid) : Arrival where
  request :=
    { method, path
      query := none
      headers :=
        { authorization := some (some "Bearer token")
          idempotencyKey := some (some key.toString)
          requestId := none
          principal := some (some "context")
          timestamp := some (some "1000")
          signature := some (some "signature")
          contentType := some (some "application/json") }
      body := [] }
  drawn := 5
  decodedAt := 1020
  now := 1020

/-- a request without credentials -/
def anonymous (method : Method) (path : List String) : Arrival where
  request := ⟨method, path, none, ⟨none, none, none, none, none, none, none⟩, []⟩
  drawn := 6
  decodedAt := 1020
  now := 1020

/-- the `i`-th request makes `calls` calls; what Garage makes meanwhile is called `id` -/
def turns (i at_ n calls : Nat) (id : String) : List ServerTurn :=
  (List.range calls).map fun j => .act i (choice at_ (n + j) id .served)

/-- Service 10 gets the bucket `b`, and credential 2010 with the key `k`.  An overview is asked for
twice: the first time there is nothing to show, and the second time the credential is issued between
the statements for the service and for its credentials.  Then somebody asks whether all is well. -/
def visited : List ServerTurn :=
  [.spawn (arrival .get ["v1", "service-overview"] 0)] ++ turns 0 1 50 1 "" ++
  [.spawn (arrival .put ["internal", "v1", "service-instances", (10 : Uuid).toString] 100)] ++
  turns 1 1 1 7 "b" ++
  [.spawn (arrival .post ["v1", "credentials"] 101)] ++ turns 2 2 10 4 "k" ++
  [.spawn (arrival .get ["v1", "service-overview"] 0)] ++ turns 3 3 30 2 "" ++
  turns 2 2 14 4 "k" ++ turns 3 3 32 4 "" ++
  [.spawn (anonymous .get ["health", "ready"])] ++ turns 4 4 40 2 ""

/-- the script comes to two entries, and of the two overviews the first is not found -/
theorem visited_outcome :
    ∃ tr s, Server.play PgStore.reference gateway visited (.start .empty) = some (tr, s) ∧
      (tr.filterMap entryOf).map Registry.Entry.key = [100, 101] ∧
      (∀ i ∈ [2, 4], ∃ t, s.threads[i]? = some t ∧ t.log ≠ []) ∧
      (∃ t response, s.threads[3]? = some t ∧ endpoint t.request.request = .read .overview ∧
        t.rest = some (.done (.ok response))) ∧
      ∃ t e, s.threads[0]? = some t ∧ endpoint t.request.request = .read .overview ∧
        t.rest = some (.done (.error e)) ∧ e.status = 404 := by
  have hfacts : (Server.play PgStore.reference gateway visited (.start .empty)).any (fun after =>
      decide ((after.1.filterMap entryOf).map Registry.Entry.key = [100, 101]) &&
      [2, 4].all (fun i => (after.2.threads[i]?).any fun t => !t.log.isEmpty) &&
      (after.2.threads[3]?).any (fun t => decide (endpoint t.request.request = .read .overview) &&
        (t.rest.bind Prog.result?).any Except.isOk) &&
      (after.2.threads[0]?).any fun t => decide (endpoint t.request.request = .read .overview) &&
        (t.rest.bind Prog.result?).any fun result =>
          decide (result.map Response.status = .error .notFound)) = true := by
    decide +kernel
  obtain ⟨⟨tr, s⟩, hplay, hafter⟩ := (Option.any_eq_true _ _).mp hfacts
  simp only [Bool.and_eq_true, decide_eq_true_eq, Option.any_eq_true, List.all_eq_true] at hafter
  obtain ⟨⟨⟨hkeys, hlogs⟩, t₃, ht₃, hend₃, result₃, hresult₃, hok⟩, t₀, ht₀, hend₀, result₀,
    hresult₀, herror⟩ := hafter
  refine ⟨tr, s, hplay, hkeys, fun i hi => ?_, ?_, ?_⟩
  · obtain ⟨t, ht, hlog⟩ := hlogs i hi
    refine ⟨t, ht, fun hnil => ?_⟩
    rw [hnil] at hlog
    cases hlog
  · cases result₃ with
    | error e => cases hok
    | ok response => exact ⟨t₃, response, ht₃, hend₃, rest_of_result hresult₃⟩
  · cases result₀ with
    | ok response => cases herror
    | error e =>
      have hstatus : e.status = 404 := by
        rw [Except.error.inj herror]
        rfl
      exact ⟨t₀, e, ht₀, hend₀, rest_of_result hresult₀, hstatus⟩

end Sample

end Syouyu
