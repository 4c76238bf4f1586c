import Syouyu.Registry.Views
import Syouyu.Server.Script
import Syouyu.System.Audit

/-!
# Reads show the registry

The entries that mutations make in the registry are one history.  A read that is answered in between
shows the registry as some part of that history has left it, a part that ends while the request is
being served.

* `Moment`             the registry at a moment between the arrival of a request and its answer;
* `Shown`              what a response shows of the registry;
* `reads_linearised`   **every answer of a read shows the registry at such moments, and is on
                       record; and one that is not found was not served**.
-/

set_option linter.unusedSectionVars false

namespace Syouyu
open Lib

/-- the entries up to a moment between the arrival of the `i`-th request and its answer make up
this registry -/
def Moment (limits : CredentialLimits) (tr : List ServerEvent) (i : Nat) (a : Arrival)
    (r : Registry) : Prop :=
  ∃ tr₁ tr₂, tr = tr₁ ++ tr₂ ∧ (tr₁.filterMap Pool.spawned?)[i]? = some a ∧
    (∃ e answer, .act i e answer ∈ tr₂) ∧
    Run (Registry.Step limits) .empty (tr₁.filterMap entryOf) r

/-- What the response to the `i`-th request shows: the service and its credentials as they are at
moments while it is being served, and what Garage says of the bucket.  What the source reads in
statements of their own may be of moments of their own. -/
inductive Shown (state : AppState) (limits : CredentialLimits) (tr : List ServerEvent) (i : Nat)
    (a : Arrival) (scope : ServiceScope) : Read → Response → Prop
  | overview {r₁ r₂ r₃ : Registry} {service service' : Registry.Service} {record : ServiceRecord}
      {n : Nat} {measuredAt : Timestamp} :
      Moment limits tr i a r₁ → r₁.Serves scope service → record.id = scope.serviceInstanceId →
      service.Named record → Moment limits tr i a r₂ → r₂.Holds scope service' →
      service'.Placed record → Moment limits tr i a r₃ →
      (r₃.active fun c => c.serviceInstanceId = scope.serviceInstanceId).encard = n →
      Shown state limits tr i a scope .overview
        (jsonResponse (serviceOverviewResponse state record .ready (countU64 n) measuredAt))
  | usage {r₁ r₂ r₃ : Registry} {service service' service'' : Registry.Service} {bucket : Bucket}
      {measuredAt : Timestamp} :
      Moment limits tr i a r₁ → r₁.Serves scope service → Moment limits tr i a r₂ →
      r₂.Holds scope service' →
      .act i (.garage (.getBucketInfo service'.bucketId)) (.ok bucket) ∈ tr →
      Moment limits tr i a r₃ → r₃.Holds scope service'' →
      Shown state limits tr i a scope .usage (jsonResponse (usageResponse state
        ⟨scope.serviceInstanceId, bucket.bytes, bucket.objects, service''.spec.quotaBytes,
          service''.spec.quotaObjects, measuredAt⟩ bucket.usage))
  | credentials {r₁ r₂ : Registry} {service : Registry.Service} {records : List CredentialRecord} :
      Moment limits tr i a r₁ → r₁.Serves scope service → Moment limits tr i a r₂ →
      r₂.Lists scope.serviceInstanceId records →
      Shown state limits tr i a scope .credentials
        (jsonResponse (credentialListResponse state records))

/-! ## audit events stay -/

section
variable {store : PgStore} {db db' : Database}

theorem audits_kept {c : CallRecord} (h : StoreStep store db c db') :
    db.audits.rows ⊆ db'.audits.rows := by
  cases step_cases h with
  | quiet _ => exact List.Subset.refl _
  | executed h => exact (prepare_audits h).symm ▸ List.Subset.refl _
  | finished h =>
    obtain ⟨-, -, _, _, _, _, -, -, -, -, ha, rfl⟩ := finish_eq_ok.mp h
    exact fun row hrow => (Table.mem_insert ha).mpr (.inl hrow)
  | renewed h =>
    obtain ⟨-, -, _, -, rfl⟩ := renewOperation_eq_ok.mp h
    exact List.Subset.refl _
  | measured h =>
    obtain ⟨_, _, _, _, _, -, -, -, -, -, rfl⟩ := recordUsage_ok h
    exact List.Subset.refl _
  | audited h =>
    obtain ⟨-, _, ha, rfl⟩ := insertAudit_eq_ok.mp h
    exact fun row hrow => (Table.mem_insert ha).mpr (.inl hrow)

/-- an audit event that was recorded is there -/
def World.Audited (w : World) (x : (e : Call) × e.Answer) : Prop :=
  ∀ audit, x = ⟨.store (.recordAudit audit), Except.ok ()⟩ →
    ∃ row ∈ w.db.audits.rows, row.event = audit

theorem audited_effect {behaviour : GarageBehaviour} {w w' : World} {e : Call} {a : e.Answer}
    (h : World.Effect store behaviour w e a w') :
    Pool.Keeps (fun _ => True) World.Audited w w' ⟨e, a⟩ := by
  have hkept : w.db.audits.rows ⊆ w'.db.audits.rows := by
    cases e with
    | store call => exact audits_kept h.1.choose_spec
    | garage call => exact h.2 ▸ List.Subset.refl _
    | query q => exact h.2 ▸ List.Subset.refl _
  refine ⟨trivial, fun audit heq => ?_, fun y hy audit heq => ?_⟩
  · cases heq
    obtain ⟨⟨env, hstep⟩, -⟩ := h
    obtain ⟨-, _, ha, hdb⟩ := insertAudit_eq_ok.mp (step_ok hstep)
    rw [hdb]
    exact ⟨_, (Table.mem_insert ha).mpr (.inr rfl), rfl⟩
  · obtain ⟨row, hrow, hevent⟩ := hy audit heq
    exact ⟨row, hkept hrow, hevent⟩

end

/-! ## a service keeps its scope -/

section
variable {store : PgStore} {behaviour : GarageBehaviour}

/-- a service that was seen in a scope is in it -/
def World.Scoped (w : World) (x : (e : Call) × e.Answer) : Prop :=
  ∀ s row o p service, x = ⟨.query (.select (.service s)), row⟩ →
    PgStore.visibleService o p row = .ok service → w.db.scopeExists s o p = true

theorem scoped_effect {w w' : World} {e : Call} {a : e.Answer}
    (h : World.Effect store behaviour w e a w') :
    Pool.Keeps (fun _ => True) World.Scoped w w' ⟨e, a⟩ := by
  have hkept : ∀ s o p, w.db.scopeExists s o p = true → w'.db.scopeExists s o p = true := by
    intro s o p hs
    cases e with
    | store call => exact scopeExists_step h.1.choose_spec hs
    | garage call => exact h.2 ▸ hs
    | query q => exact h.2 ▸ hs
  refine ⟨trivial, fun s row o p service heq hvisible => hkept _ _ _ ?_,
    fun y hy s row o p service heq hvisible => hkept _ _ _ (hy s row o p service heq hvisible)⟩
  cases heq
  obtain ⟨hl, ho, hp, -⟩ := visibleService_eq_ok.mp hvisible
  exact scopeExists_iff.mpr ⟨service, h.1.symm.trans hl, ho, hp⟩

end

section
variable {Key : Type} {gw : Gateway Key} {store : PgStore} {behaviour : GarageBehaviour}
  {garage : Garage} {tr : List ServerEvent} {s : Server} {i : Nat}

theorem server_reachable (h : Run (ServerStep store behaviour gw) (.start garage) tr s) :
    Reachable store s.world.db :=
  (h.invariant (Server.Recalled store gw) (fun _ _ _ hs h => hs.step h)
    (start_recalled store gw garage)).inv

/-- what the logs say of scopes is true, and the handlers keep to their discipline -/
theorem server_scoped (h : Run (ServerStep store behaviour gw) (.start garage) tr s) :
    s.Sound (gw.Lifts May) (fun _ => True) World.Scoped := by
  have hstart : (Server.start garage).Sound (gw.Lifts May) (fun _ => True) World.Scoped :=
    ⟨trivial, fun t ht => by cases ht⟩
  exact Pool.run_sound h hstart (fun a => (serve_may gw a).mono fun _ _ _ => trivial)
    fun _ _ _ _ _ _ _ _ _ heffect => scoped_effect heffect

/-- the world in which the `i`-th request made a call -/
structure Asked (gw : Gateway Key) (store : PgStore) (behaviour : GarageBehaviour)
    (tr : List ServerEvent) (i : Nat) (a : Arrival) (x : (e : Call) × e.Answer) (w : World) :
    Prop where
  reachable : Reachable store w.db
  answered : ∃ w', World.Effect store behaviour w x.1 x.2 w'
  allowed : ∃ log, gw.Lifts May a log x.1 ∧ ∀ y ∈ log, w.Scoped y
  moment : Moment store.credentialLimits tr i a w.db.registry

/-- **a call was answered at a moment** -/
theorem asked_moment (h : Run (ServerStep store behaviour gw) (.start garage) tr s)
    {t : Thread Arrival Call Call.Answer ApiError Response} (ht : s.threads[i]? = some t)
    {x : (e : Call) × e.Answer} (hx : x ∈ t.log) :
    ∃ w, Asked gw store behaviour tr i t.request x w := by
  obtain ⟨s₁, ⟨tr₁, tr₂, rfl, hrun⟩, ⟨t₁, next, ht₁, hrest⟩, w', heffect⟩ :=
    Pool.run_passes h rfl ht hx
  have hthread := (server_scoped hrun).threads t₁ (List.mem_of_getElem? ht₁)
  -- the request is the one the thread was started for
  have hfirst : (tr₁.filterMap Pool.spawned?)[i]? = some t₁.request := by
    rw [← Pool.run_spawned hrun rfl, List.getElem?_map, ht₁, Option.map_some]
  have hrequest : t₁.request = t.request := by
    have hall := congrArg (fun l => l[i]?) (Pool.run_spawned h rfl)
    simp only [List.getElem?_map, ht, Option.map_some, List.filterMap_append] at hall
    rw [List.getElem?_append_left (List.getElem?_eq_some_iff.mp hfirst).1, hfirst] at hall
    exact (Option.some.inj hall).symm
  exact ⟨s₁.world, server_reachable hrun, ⟨w', heffect⟩,
    ⟨t₁.log, hrequest ▸ (hthread.obeys _ hrest).1, hthread.truthful⟩,
    tr₁, _, rfl, hrequest ▸ hfirst, ⟨_, _, List.mem_cons_self⟩, server_registers hrun⟩

section
variable {t : Thread Arrival Call Call.Answer ApiError Response} {r : ReadRequest}
  {principal : Principal}

/-- **the two statements of an overview**, each at a moment of its own -/
theorem overview_moments (h : Run (ServerStep store behaviour gw) (.start garage) tr s)
    (ht : s.threads[i]? = some t) (hr : gw.receive t.request = .ok (.read r))
    (hauth : authorize r.principal r.read.permission = .ok principal) {record : ServiceRecord}
    (hrecord : principal.scope.Overviews t.log record) :
    ∃ r₁ r₂ service service', Moment store.credentialLimits tr i t.request r₁ ∧
      r₁.Serves principal.scope service ∧ record.id = principal.scope.serviceInstanceId ∧
      service.Named record ∧ Moment store.credentialLimits tr i t.request r₂ ∧
      r₂.Holds principal.scope service' ∧ service'.Placed record := by
  obtain ⟨service, bucket, ⟨row, hrow, hvisible⟩, hbucket, hrecord⟩ := hrecord.rows
  obtain ⟨w₁, hreach₁, ⟨_, hread₁, -⟩, -, hmoment₁⟩ := asked_moment h ht hrow
  obtain ⟨w₂, hreach₂, ⟨_, hread₂, -⟩, ⟨log, hlifts, hscoped⟩, hmoment₂⟩ :=
    asked_moment h ht hbucket
  have hread₁ : row = w₁.db.services.lookup principal.scope.serviceInstanceId := hread₁
  have hread₂ : bucket = w₂.db.buckets.lookup principal.scope.serviceInstanceId := hread₂
  -- the bucket was asked for after the service was seen, which has kept its scope
  obtain ⟨principal', hauth', hconsults⟩ := hlifts.reading hr
  obtain rfl := Except.ok.inj (hauth.symm.trans hauth')
  have hscope : w₂.db.scopeExists principal.scope.serviceInstanceId
      principal.scope.organizationId principal.scope.projectId = true := by
    cases hconsults with
    | bucketRow hsees =>
      obtain ⟨row', hrow', hvisible'⟩ := hsees.row
      exact hscoped _ hrow' _ _ _ _ _ rfl hvisible'
  obtain ⟨hid, held, hserves, hnamed⟩ := overview_named hreach₁ (hread₁ ▸ hvisible) hrecord
  obtain ⟨held', hholds, hplaced⟩ := overview_placed hreach₂ hscope (hread₂ ▸ hrecord)
  exact ⟨_, _, held, held', hmoment₁, hserves, hid, hnamed, hmoment₂, hholds, hplaced⟩

/-- the list of credentials, at a moment of its own -/
theorem listed_moment (h : Run (ServerStep store behaviour gw) (.start garage) tr s)
    (ht : s.threads[i]? = some t) {records : List CredentialRecord}
    (hrecords : principal.scope.Listed t.log records) :
    ∃ r, Moment store.credentialLimits tr i t.request r ∧
      r.Lists principal.scope.serviceInstanceId records := by
  obtain ⟨rows, hrows, hrecords⟩ := hrecords.rows
  obtain ⟨w, -, ⟨_, hread, -⟩, -, hmoment⟩ := asked_moment h ht hrows
  have hread : rows = w.db.credentialRows principal.scope.serviceInstanceId := hread
  exact ⟨_, hmoment, credentials_listed (hread ▸ hrecords)⟩

theorem shown_of_shows (h : Run (ServerStep store behaviour gw) (.start garage) tr s)
    (ht : s.threads[i]? = some t) (hr : gw.receive t.request = .ok (.read r))
    (hauth : authorize r.principal r.read.permission = .ok principal) {read : Read}
    {response : Response} (hshows : Shows gw.state principal t.log read response) :
    Shown gw.state store.credentialLimits tr i t.request principal.scope read response := by
  cases hshows with
  | overview hrecord hcredentials _ =>
    obtain ⟨r₁, r₂, service, service', hmoment₁, hserves, hid, hnamed, hmoment₂, hholds, hplaced⟩ :=
      overview_moments h ht hr hauth hrecord
    obtain ⟨r₃, hmoment₃, hlists⟩ := listed_moment h ht hcredentials
    rw [hnamed.phase]
    exact .overview hmoment₁ hserves hid hnamed hmoment₂ hholds hplaced hmoment₃ hlists.active
  | usage hrecord hb hbucket hstored =>
    obtain ⟨r₁, r₂, service, service', hmoment₁, hserves, -, -, hmoment₂, hholds, hplaced⟩ :=
      overview_moments h ht hr hauth hrecord
    obtain ⟨w₃, hreach₃, ⟨_, ⟨env, hstep⟩, -⟩, -, hmoment₃⟩ := asked_moment h ht hstored
    obtain ⟨service'', hholds'', rfl⟩ := usage_shown hreach₃ (step_ok hstep)
    obtain rfl := Option.some.inj (hb.symm.trans hplaced.bucketId)
    obtain ⟨s₁, ⟨tr₁, tr₂, htr, -⟩, -, -⟩ := Pool.run_passes h rfl ht hbucket
    refine .usage hmoment₁ hserves hmoment₂ hholds ?_ hmoment₃ hholds''
    rw [htr]
    exact List.mem_append_right _ List.mem_cons_self
  | credentials hrecords =>
    obtain ⟨w, hreach, ⟨_, hread, -⟩, -, hmoment⟩ := asked_moment h ht hrecords.found
    have hread : true = w.db.serviceExists principal.scope.organizationId
      principal.scope.projectId principal.scope.serviceInstanceId := hread
    obtain ⟨service, hserves⟩ := service_served (reachable_orderly hreach).matched hread.symm
    obtain ⟨r₂, hmoment₂, hlists⟩ := listed_moment h ht hrecords
    exact .credentials hmoment hserves hmoment₂ hlists

end

theorem recorded_audited (h : Run (ServerStep store behaviour gw) (.start garage) tr s)
    {t : Thread Arrival Call Call.Answer ApiError Response} (ht : t ∈ s.threads)
    {audit : AuditEvent} (hx : ⟨.store (.recordAudit audit), Except.ok ()⟩ ∈ t.log) :
    ∃ row ∈ s.world.db.audits.rows, row.event = audit := by
  have hstart : (Server.start garage).Sound (gw.Lifts May) (fun _ => True) World.Audited :=
    ⟨trivial, fun t ht => by cases ht⟩
  have hsound := Pool.run_sound h hstart (fun a => (serve_may gw a).mono fun _ _ _ => trivial)
    fun _ _ _ _ _ _ _ _ _ heffect => audited_effect heffect
  exact (hsound.threads t ht).truthful _ hx audit rfl

/-- a call of the store by which nothing is found -/
theorem Consults.unserved {principal : Principal} {read : Read} {log : CallLog} {call : StoreCall}
    (hconsults : Consults principal read log (.store call)) {env : CallEnv} {db db' : Database}
    (hreach : Reachable store db) (hstep : StoreStep store db ⟨env, call, .error .notFound⟩ db') :
    db.registry.Unserved principal.scope := by
  have hfailed := (Tx.atomically_error.mp hstep).1
  cases hconsults with
  | usage _ => exact usage_refused hreach _ hfailed rfl
  | @audit requestId =>
    have hother : (insertAudit env (readAudit principal requestId read)).FailsOnly
        (fun e => e ≠ .notFound) db :=
      .ensure_bind (fun _ h => by cases h) fun _ =>
        insertRow_failsOnly (fun _ _ h => by cases h) fun _ h => by cases h
    exact absurd rfl (hother _ hfailed)

/-- **what is not found is not served** -/
theorem Missing.unserved {a : Arrival} {r : ReadRequest} {principal : Principal}
    {x : (e : Call) × e.Answer} {w : World} (hmissing : Missing principal.scope x)
    (hasked : Asked gw store behaviour tr i a x w) (hr : gw.receive a = .ok (.read r))
    (hauth : authorize r.principal r.read.permission = .ok principal) :
    w.db.registry.Unserved principal.scope := by
  have hmatched := (reachable_orderly hasked.reachable).matched
  obtain ⟨w', heffect⟩ := hasked.answered
  cases hmissing with
  | store =>
    obtain ⟨log, hlifts, -⟩ := hasked.allowed
    obtain ⟨principal', hauth', hconsults⟩ := hlifts.reading hr
    obtain rfl := Except.ok.inj (hauth.symm.trans hauth')
    obtain ⟨⟨env, hstep⟩, -⟩ := heffect
    exact hconsults.unserved hasked.reachable hstep
  | @service row _ hinvisible =>
    have hread : row = w.db.services.lookup principal.scope.serviceInstanceId := heffect.1
    exact overview_refused hmatched (hread ▸ hinvisible)
  | found =>
    have hread : false = w.db.serviceExists principal.scope.organizationId
      principal.scope.projectId principal.scope.serviceInstanceId := heffect.1
    exact credentials_refused hmatched hread.symm

/-- **Reads are linearised.**  However requests run side by side, the answer to a read is one that
the registry gives at moments while the read is being served: the overview shows the live service of
the principal's scope, its bucket, and the number of its active credentials; the list, its
credentials, each of them once; the usage, what Garage says of the bucket of the service, beside its
quotas.  An answer goes out only after the read is on record.  And a read that is answered `404` was
for a service that was not there, or deleted, or of another project. -/
theorem reads_linearised (h : Run (ServerStep store behaviour gw) (.start garage) tr s)
    (t : Thread Arrival Call Call.Answer ApiError Response) (ht : s.threads[i]? = some t)
    (r : ReadRequest) (hr : gw.receive t.request = .ok (.read r))
    (result : Except ApiError Response) (hresult : t.rest = some (.done result)) :
    (∀ response, result = .ok response → ∃ principal, ContextSigned gw t.request principal ∧
      Shown gw.state store.credentialLimits tr i t.request principal.scope r.read response ∧
      ∃ row ∈ s.world.db.audits.rows, ∃ requestId,
        row.event = readAudit principal requestId r.read) ∧
    ∀ e, result = .error e → e.status = 404 → ∃ principal registry,
      ContextSigned gw t.request principal ∧
      Moment store.credentialLimits tr i t.request registry ∧
      registry.Unserved principal.scope := by
  have hmem := List.mem_of_getElem? ht
  obtain ⟨hanswers, hunfound⟩ := Pool.run_answer h rfl (serve_may gw) hmem hresult r hr
  refine ⟨fun response hok => ?_, fun e herror hstatus => ?_⟩
  · obtain ⟨principal, hauth, hshows, requestId, haudited⟩ := hanswers response hok
    obtain ⟨row, hrow, hevent⟩ := recorded_audited h hmem haudited
    exact ⟨principal, (receive_reads hr hauth).2.1, shown_of_shows h ht hr hauth hshows, row, hrow,
      requestId, hevent⟩
  · obtain ⟨principal, hauth, x, hx, hmissing⟩ := hunfound e herror hstatus
    obtain ⟨w, hasked⟩ := asked_moment h ht hx
    exact ⟨principal, w.db.registry, (receive_reads hr hauth).2.1, hasked.moment,
      hmissing.unserved hasked hr hauth⟩

/-- the overview of the script that is answered, and the one before there was a service -/
theorem reads_linearised_visited :
    ∃ tr s, Server.play PgStore.reference Sample.gateway Sample.visited (.start .empty) =
        some (tr, s) ∧
      (∃ t response, s.threads[3]? = some t ∧ t.rest = some (.done (.ok response)) ∧
        ∃ principal, ContextSigned Sample.gateway t.request principal ∧
          Shown AppState.reference PgStore.reference.credentialLimits tr 3 t.request
            principal.scope .overview response ∧
          ∃ row ∈ s.world.db.audits.rows, ∃ requestId,
            row.event = readAudit principal requestId .overview) ∧
      ∃ t e, s.threads[0]? = some t ∧ t.rest = some (.done (.error e)) ∧ e.status = 404 ∧
        ∃ principal registry, ContextSigned Sample.gateway t.request principal ∧
          Moment PgStore.reference.credentialLimits tr 0 t.request registry ∧
          registry.Unserved principal.scope := by
  obtain ⟨tr, s, hplay, -, -, ⟨t₃, response, ht₃, hend₃, hdone₃⟩, t₀, e, ht₀, hend₀, hdone₀,
    hstatus⟩ := Sample.visited_outcome
  have hrun := Server.play_run hplay
  have hshown := reads_linearised hrun t₃ ht₃ _ (receive_read hend₃) _ hdone₃
  have hmissed := reads_linearised hrun t₀ ht₀ _ (receive_read hend₀) _ hdone₀
  exact ⟨tr, s, hplay, ⟨t₃, response, ht₃, hdone₃, hshown.1 response rfl⟩, t₀, e, ht₀, hdone₀,
    hstatus, hmissed.2 e rfl hstatus⟩

end

end Syouyu
