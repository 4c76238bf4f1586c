import Syouyu.Api.Binding
import Syouyu.System.Discipline

/-!
# The order of a handler's calls

Whatever the store and Garage answer, a handler prepares its operation first and makes no call after
a completion that succeeded.  It lists keys after it has renewed its lease.  A new key is denied
everything before it is allowed anything, and what is completed with it is completed before any key
is deleted again.

* `Holding`         a key was made and none was deleted since;
* `Conduct`         the order of the calls;
* `handle_conduct`  **every handler keeps to it**, by one lemma for each part of a handler.
-/

set_option linter.unusedSectionVars false

namespace Syouyu
open Lib Lib.Prog

/-! ## the order -/

/-- no operation was completed -/
def Unfinished (log : CallLog) : Prop :=
  ∀ finish, ⟨.store (.finish finish), Except.ok ()⟩ ∉ log

/-- no key was given permissions -/
def Unallowed (log : CallLog) : Prop :=
  ∀ b k p a, ⟨.garage (.allowBucketKey b k p), a⟩ ∉ log

/-- the key was made, and no key was deleted since -/
def Holding (log : CallLog) (k : String) : Prop :=
  ∃ before request key after, log = before ++ ⟨.garage (.createKey request), Except.ok key⟩ :: after ∧
    AccessKey.accessKeyId key = k ∧ ∀ id a, ⟨.garage (.deleteKey id), a⟩ ∉ after

/-- the calls that come before a key has permissions -/
def Call.early : Call → Bool
  | .garage (.createKey _) => true
  | .garage (.denyBucketKey _ _ _) => true
  | _ => false

/-- the calls that can be made until the operation is completed -/
def Call.plain : Call → Bool
  | .store (.prepare _) => false
  | .store (.finish _) => false
  | .garage .listKeys => false
  | e => !e.early

/-- the calls that change no key -/
def Call.minor : Call → Bool
  | .store (.renewOperation _ _) => true
  | .query _ => true
  | _ => false

/-- the calls that remove the keys of earlier attempts -/
def Call.sweeps : Call → Bool
  | .garage (.deleteKey _) => true
  | _ => false

/-- the calls in their order -/
structure Conduct (log : CallLog) (e : Call) : Prop where
  unfinished : Unfinished log
  prepare : ∀ call, e = .store (.prepare call) → log = []
  listed : e = .garage .listKeys → ∀ {call : PrepareCall} {o : Uuid} {context : call.Context},
    Granted log call o context →
    ⟨.store (.renewOperation call.operation o), Except.ok ()⟩ ∈ log
  early : e.early = true → Unallowed log
  finish : ∀ command credential o response event,
    e = .store (.finish ⟨.createCredential command credential, o, response, event⟩) →
    Holding log credential.garageKeyId

section
variable {ε α : Type} {log : CallLog} {e : Call} {a : e.Answer}

theorem unfinished_nil : Unfinished [] := fun _ h => by cases h

theorem Unfinished.append (h : Unfinished log) {x : (e : Call) × e.Answer}
    (hx : ∀ finish, x ≠ ⟨.store (.finish finish), Except.ok ()⟩) : Unfinished (log ++ [x]) := by
  intro finish hmem
  rcases List.mem_append.mp hmem with hmem | hmem
  · exact h finish hmem
  · exact hx finish (List.mem_singleton.mp hmem).symm

theorem Unfinished.plain (h : Unfinished log) (he : e.plain = true) :
    Unfinished (log ++ [⟨e, a⟩]) := by
  refine h.append fun finish heq => ?_
  cases heq
  cases he

theorem Unallowed.append (h : Unallowed log) {x : (e : Call) × e.Answer}
    (hx : ∀ b k p, x.1 ≠ .garage (.allowBucketKey b k p)) : Unallowed (log ++ [x]) := by
  intro b k p a hmem
  rcases List.mem_append.mp hmem with hmem | hmem
  · exact h b k p a hmem
  · exact hx b k p (congrArg Sigma.fst (List.mem_singleton.mp hmem).symm)

/-- **what a further call makes of a held key** -/
theorem holding_append {x : (e : Call) × e.Answer} {k : String} :
    Holding (log ++ [x]) k ↔
      (Holding log k ∧ ∀ id, x.1 ≠ .garage (.deleteKey id)) ∨
      ∃ request key, x = ⟨.garage (.createKey request), Except.ok key⟩ ∧
        AccessKey.accessKeyId key = k := by
  constructor
  · rintro ⟨before, request, key, after, hlog, hk, hafter⟩
    rcases List.eq_nil_or_concat' after with rfl | ⟨after, y, rfl⟩
    · obtain ⟨-, hx⟩ := List.append_inj' hlog rfl
      exact .inr ⟨request, key, List.singleton_inj.mp hx, hk⟩
    · rw [← List.cons_append, ← List.append_assoc] at hlog
      obtain ⟨rfl, hx⟩ := List.append_inj' hlog rfl
      obtain rfl := List.singleton_inj.mp hx
      refine .inl ⟨⟨before, request, key, after, rfl, hk, fun id a hmem => ?_⟩, fun id hid => ?_⟩
      · exact hafter id a (List.mem_append_left _ hmem)
      · obtain ⟨e, a⟩ := x
        obtain rfl : e = .garage (.deleteKey id) := hid
        exact hafter id a (List.mem_append_right _ List.mem_cons_self)
  · rintro (⟨⟨before, request, key, after, rfl, hk, hafter⟩, hx⟩ | ⟨request, key, rfl, hk⟩)
    · refine ⟨before, request, key, after ++ [x], by simp, hk, fun id a hmem => ?_⟩
      rcases List.mem_append.mp hmem with hmem | hmem
      · exact hafter id a hmem
      · exact hx id (congrArg Sigma.fst (List.mem_singleton.mp hmem).symm)
    · exact ⟨log, request, key, [], rfl, hk, fun _ _ hmem => by cases hmem⟩

theorem Conduct.plain (h : Unfinished log) (he : e.plain = true) : Conduct log e where
  unfinished := h
  prepare call heq := by
    subst heq
    cases he
  listed heq := by
    subst heq
    cases he
  early hearly := by
    revert he hearly
    unfold Call.plain
    split <;> intro he hearly
    · cases he
    · cases he
    · cases he
    · rw [hearly] at he
      cases he
  finish command credential o response event heq := by
    subst heq
    cases he

theorem Conduct.early_call (h : Unfinished log) (ha : Unallowed log) (he : e.early = true) :
    Conduct log e where
  unfinished := h
  prepare call heq := by
    subst heq
    cases he
  listed heq := by
    subst heq
    cases he
  early _ := ha
  finish command credential o response event heq := by
    subst heq
    cases he

theorem Call.minor_plain (he : e.minor = true) : e.plain = true := by
  cases e with
  | store call => cases call <;> first | rfl | cases he
  | garage call => cases he
  | query q => rfl

theorem Call.sweeps_plain (he : e.sweeps = true) : e.plain = true := by
  cases e with
  | garage call => cases call <;> first | rfl | cases he
  | _ => cases he

/-! ## parts that are free to call -/

/-- the program makes calls of one class only -/
def Asks (C : Call → Bool) (p : HandlerM ε α) : Prop :=
  ∀ log, p.Yields (fun _ e => C e = true) (fun _ _ => True) log

section
variable {C : Call → Bool} {p : HandlerM ε α}

theorem checked_asks {checks : Except GarageError Unit} (call : GarageCall)
    (he : C (.garage call) = true) : Asks C (onGarage (GarageAdminClient.checked checks call)) := by
  intro log
  cases checks with
  | error e => exact ⟨fun _ _ => trivial⟩
  | ok u =>
    refine ⟨⟨he, fun answer => ?_⟩⟩
    cases answer <;> exact fun _ _ => trivial

theorem Asks.mono {C' : Call → Bool} (h : Asks C p) (hC : ∀ e, C e = true → C' e = true) :
    Asks C' p :=
  fun log => ⟨(h log).obeys.allowing fun _ e he => hC e he⟩

/-- **a part that makes plain calls only is in order**, whatever its result -/
theorem Asks.conduct {I : CallLog → Prop} (h : Asks C p) (hC : ∀ e, C e = true → e.plain = true)
    (hopen : ∀ l, I l → Unfinished l) (hkeep : ∀ l e a, I l → C e = true → I (l ++ [⟨e, a⟩]))
    (hI : I log) : p.Obeys Conduct (fun l _ => I l) log := by
  refine ((h log).obeys.keeping hI (fun l e hl he => ?_) hkeep).mono fun _ _ hr => hr.2
  exact .plain (hopen l hl) (hC e he)

theorem Asks.unfinished (h : Asks Call.plain p) (hu : Unfinished log) :
    p.Obeys Conduct (fun l _ => Unfinished l) log :=
  h.conduct (fun _ he => he) (fun _ hl => hl) (fun _ _ _ hl he => hl.plain he) hu

end

theorem utcNow_minor : Asks Call.minor utcNow := fun _ => utcNow_yields rfl

theorem renew_minor {operation : OperationRequest} {o : Uuid} :
    Asks Call.minor (renewOperation operation o) :=
  fun _ => (renewOperation_yields rfl).mono fun _ _ _ _ => trivial

theorem audit_minor {headers : Headers} {operation : OperationRequest} {resource : Resource}
    {details : Value} : Asks Call.minor (audit headers operation resource details) :=
  fun _ => (audit_yields rfl).mono fun _ _ _ _ => trivial

section
variable {C : Call → Bool}

theorem gone_asks {p : GarageM GarageError Unit} (h : Asks C (onGarage p)) :
    Asks C (onGarage (GarageAdapter.gone p)) := by
  intro log
  refine garage_bind (garage_attempt (h log).obeys) fun l answer _ _ => ?_
  cases answer with
  | ok u => exact yields_pure trivial
  | error e =>
    simp only []
    split
    · exact yields_pure trivial
    · exact yields_throw

theorem revokeCredential_asks {k : String} (he : C (.garage (.deleteKey k)) = true) :
    Asks C (onGarage (GarageAdapter.revokeCredential k)) :=
  gone_asks (checked_asks (.deleteKey k) he)

theorem findBucket_plain {existing : Option String} {spec : SyouyuSpec} :
    Asks Call.plain (onGarage (GarageAdapter.findBucket existing spec)) := by
  intro log
  cases existing with
  | some bucketId =>
    refine garage_bind (garage_mapError (checked_asks (.getBucketInfo bucketId) rfl log))
      fun l bucket _ _ => ?_
    split
    · exact yields_pure trivial
    · exact yields_throw
  | none =>
    refine garage_bind (garage_attempt (checked_asks (.getBucketInfoByAlias spec.bucketName) rfl
      log).obeys) fun l answer _ _ => ?_
    cases answer with
    | ok bucket => exact yields_pure trivial
    | error e =>
      simp only []
      split
      · exact garage_mapError (checked_asks (.createBucket spec.bucketName) rfl l)
      · exact yields_throw

theorem reconcileBucket_plain {existing : Option String} {spec : SyouyuSpec} :
    Asks Call.plain (onGarage (GarageAdapter.reconcileBucket existing spec)) := by
  intro log
  refine garage_bind (findBucket_plain log) fun l found _ _ => ?_
  exact garage_bind (garage_mapError (checked_asks (.updateBucket found.id
    (.limited spec.quotaBytes spec.quotaObjects)) rfl l)) fun _ _ _ _ => yields_pure trivial

theorem bucketUsage_plain {physicalBucketId : String} :
    Asks Call.plain (onGarage (GarageAdapter.bucketUsage physicalBucketId)) :=
  fun log => garage_bind (garage_mapError (checked_asks (.getBucketInfo physicalBucketId) rfl log))
    fun _ _ _ _ => yields_pure trivial

theorem deleteBucket_plain {id : String} :
    Asks Call.plain (onGarage (GarageAdapter.deleteBucket id)) :=
  gone_asks (checked_asks (.deleteBucket id) rfl)

theorem deleteKeys_sweeps (ids : List String) :
    Asks Call.sweeps (onGarage (GarageAdapter.deleteKeys ids)) := by
  induction ids with
  | nil => exact fun _ => yields_pure trivial
  | cons id rest ih =>
    exact fun log => garage_bind (gone_asks (checked_asks (.deleteKey id) rfl) log) fun l _ _ _ => ih l

end

/-! ## the key of a credential -/

/-- nothing was completed and no key was given permissions -/
def Early (log : CallLog) : Prop := Unfinished log ∧ Unallowed log

/-- the key was made and kept, and nothing was completed -/
def Held (k : String) (log : CallLog) : Prop := Unfinished log ∧ Holding log k

theorem Early.sweep (h : Early log) (he : e.sweeps = true) : Early (log ++ [⟨e, a⟩]) := by
  refine ⟨h.1.plain (Call.sweeps_plain he), h.2.append fun b k p heq => ?_⟩
  obtain rfl : e = .garage (.allowBucketKey b k p) := heq
  cases he

theorem Held.append {k : String} (h : Held k log) (hfinish : ∀ finish, e ≠ .store (.finish finish))
    (hdelete : ∀ id, e ≠ .garage (.deleteKey id)) : Held k (log ++ [⟨e, a⟩]) :=
  ⟨h.1.append fun finish heq => hfinish finish (congrArg Sigma.fst heq),
    holding_append.mpr (.inl ⟨h.2, hdelete⟩)⟩

theorem Held.minor {k : String} (h : Held k log) (he : e.minor = true) :
    Held k (log ++ [⟨e, a⟩]) := by
  refine h.append (fun finish heq => ?_) fun id heq => ?_ <;> subst heq <;> cases he

theorem abandonKey_conduct {k : String} {error : GarageBackendError} {P : CallLog → α → Prop}
    (hu : Unfinished log) :
    (onGarage (GarageAdapter.abandonKey k error : GarageM GarageBackendError α)).Yields
      Conduct P log := by
  have hask : Asks Call.plain (onGarage (GarageAdminClient.deleteKey k)) :=
    checked_asks (.deleteKey k) rfl
  exact garage_bind (garage_attempt (hask.unfinished hu)) fun _ _ _ _ => yields_throw

/-- a call about a key leaves it held, whatever is answered -/
theorem grant_conduct {checks : Except GarageError Unit} {call : GarageCall} {k : String}
    (hmay : Conduct log (.garage call)) (hcall : ∀ id, call ≠ .deleteKey id) (hheld : Held k log) :
    (onGarage (GarageAdminClient.checked checks call)).Obeys Conduct (fun l _ => Held k l) log := by
  cases checks with
  | error e => exact hheld
  | ok u =>
    refine ⟨hmay, fun answer => ?_⟩
    have hnext : Held k (log ++ [⟨.garage call, answer⟩]) :=
      hheld.append (fun _ heq => by cases heq) fun id heq => hcall id (Call.garage.inj heq)
    cases answer <;> exact hnext

theorem setBucketKeyPermissions_conduct {b k : String} {permissions : BucketKeyPermissions}
    (hheld : Held k log) (ha : Unallowed log) :
    (onGarage (GarageAdminClient.setBucketKeyPermissions b k permissions)).Obeys Conduct
      (fun l _ => Held k l) log := by
  have hdeny : Conduct log (.garage (.denyBucketKey b k .all)) := .early_call hheld.1 ha rfl
  have hinj : onGarage (GarageAdminClient.setBucketKeyPermissions b k permissions) =
      onGarage (GarageAdminClient.denyBucketKey b k .all) >>= fun revoked => onGarage
        (if permissions.isEmpty then pure revoked
          else GarageAdminClient.allowBucketKey b k permissions) :=
    inject_bind _ _
  rw [hinj, obeys_bind]
  refine (grant_conduct hdeny (fun _ => GarageCall.noConfusion) hheld).mono fun l r hl => ?_
  cases r with
  | error e => exact hl
  | ok revoked =>
    show (onGarage _).Obeys Conduct _ l
    split
    · exact hl
    · have hallow : Conduct l (.garage (.allowBucketKey b k permissions)) := .plain hl.1 rfl
      exact grant_conduct hallow (fun _ h => by cases h) hl

theorem permitKey_conduct {b : String} {permissions : BucketPermissions} {key : AccessKey}
    (hheld : Held key.accessKeyId log) (ha : Unallowed log) :
    (onGarage (GarageAdapter.permitKey b permissions key)).Yields Conduct
      (fun l issued => Held issued.garageKeyId l) log := by
  unfold GarageAdapter.permitKey
  split
  · exact abandonKey_conduct hheld.1
  · refine garage_bind (garage_attempt (setBucketKeyPermissions_conduct hheld ha))
      fun l answer _ hl => ?_
    cases answer with
    | ok bucket => exact yields_pure hl
    | error e => exact abandonKey_conduct hl.1

theorem createKey_conduct {request : CreateKeyRequest} (h : Early log) :
    (onGarage (GarageAdminClient.createKey request)).Yields Conduct
      (fun l key => Held key.accessKeyId l ∧ Unallowed l) log := by
  have hmay : Conduct log (.garage (.createKey request)) := .early_call h.1 h.2 rfl
  unfold GarageAdminClient.createKey
  cases request.validate with
  | error e => exact ⟨fun _ hr => by cases hr⟩
  | ok u =>
    refine ⟨⟨hmay, fun answer => ?_⟩⟩
    cases answer with
    | error e => exact fun _ hr => by cases hr
    | ok key =>
      intro made hr
      obtain rfl := Except.ok.inj hr
      refine ⟨⟨h.1.append fun _ heq => ?_, ?_⟩, h.2.append fun _ _ _ heq => ?_⟩
      · cases heq
      · exact holding_append.mpr (.inr ⟨request, _, rfl, rfl⟩)
      · cases heq

theorem listKeys_conduct (h : Early log) (hmay : Conduct log (.garage .listKeys)) :
    (onGarage GarageAdminClient.listKeys).Yields Conduct (fun l _ => Early l) log := by
  refine ⟨⟨hmay, fun answer => ?_⟩⟩
  have hnext : Early (log ++ [⟨.garage .listKeys, answer⟩]) :=
    ⟨h.1.append fun _ heq => (by cases heq), h.2.append fun _ _ _ heq => by cases heq⟩
  cases answer with
  | ok keys => exact fun _ _ => hnext
  | error e => exact fun _ _ => hnext

/-- **the key of a credential is held when it is returned** -/
theorem createCredential_conduct {b name : String} {permissions : BucketPermissions}
    (h : Early log) (hmay : Conduct log (.garage .listKeys)) :
    (onGarage (GarageAdapter.createCredential b name permissions)).Yields Conduct
      (fun l issued => Held issued.garageKeyId l) log := by
  refine garage_bind (garage_mapError (listKeys_conduct h hmay)) fun l₁ keys _ h₁ => ?_
  have hsweep := (deleteKeys_sweeps ((keys.filter fun key => key.name == name).map
    AccessKeySummary.id)).conduct (fun _ he => Call.sweeps_plain he) (fun _ h => h.1)
    (fun _ _ _ h he => h.sweep he) h₁
  refine garage_bind ⟨hsweep.mono fun _ _ hr _ _ => hr⟩ fun l₂ _ _ h₂ => ?_
  refine garage_bind (garage_mapError (createKey_conduct h₂)) fun l₃ key _ hkey => ?_
  exact permitKey_conduct hkey.1 hkey.2

/-! ## parts of handlers -/

/-- a program on Garage completes nothing -/
theorem garage_unfinished {p : GarageM ε α} {Q : CallLog → Except ε α → Prop}
    (h : (onGarage p).Obeys Conduct Q log) (hu : Unfinished log) :
    (onGarage p).Obeys Conduct (fun l r => Q l r ∧ Unfinished l) log := by
  induction p generalizing log with
  | done r => exact ⟨h, hu⟩
  | ask call next ih =>
    refine ⟨h.1, fun a => ih a (h.2 a) (hu.append fun finish heq => ?_)⟩
    cases heq

theorem finish_conduct {finish : FinishCall} (hu : Unfinished log)
    (h : ∀ command credential, finish.completion = .createCredential command credential →
      Holding log credential.garageKeyId) : Conduct log (.store (.finish finish)) where
  unfinished := hu
  prepare _ heq := by cases heq
  listed heq := by cases heq
  early he := by cases he
  finish command credential o response event heq := by
    obtain rfl := StoreCall.finish.inj (Call.store.inj heq)
    exact h command credential rfl

/-- a completion ends the handler -/
theorem completing_conduct {finish : FinishCall} (hu : Unfinished log)
    (h : ∀ command credential, finish.completion ≠ .createCredential command credential) :
    (completing finish).Yields Conduct (fun _ _ => True) log := by
  have hmay := finish_conduct hu fun command credential heq => absurd heq (h command credential)
  refine ⟨⟨hmay, fun a => ?_⟩⟩
  cases a with
  | error e => exact fun _ _ => trivial
  | ok u => exact (yields_ofExcept fun _ _ => trivial).obeys

theorem minor_conduct {p : HandlerM ε α} (h : Asks Call.minor p) (hu : Unfinished log) :
    p.Yields Conduct (fun l _ => Unfinished l) log :=
  ⟨((h.mono fun _ he => Call.minor_plain he).unfinished hu).mono fun _ _ hr _ _ => hr⟩

theorem held_conduct {p : HandlerM ε α} {k : String} (h : Asks Call.minor p) (hheld : Held k log) :
    p.Yields Conduct (fun l _ => Held k l) log :=
  ⟨(h.conduct (fun _ he => Call.minor_plain he) (fun _ hl => hl.1)
    (fun _ _ _ hl he => hl.minor he) hheld).mono fun _ _ hr _ _ => hr⟩

theorem failWith_conduct {x : Execution} {details : Value} {error : GarageBackendError}
    {P : CallLog → α → Prop} (hu : Unfinished log) :
    (failWith x details error : HandlerM ApiError α).Yields Conduct P log := by
  refine yields_bind (minor_conduct audit_minor hu) fun l event _ hl => ?_
  refine yields_bind (P := fun _ _ => True) ?_ fun _ _ _ _ => yields_throw
  have hmay : Conduct l (.store (.finish ⟨.fail x.operation, x.operationId,
      (ApiError.ofBackend error).storedResponse, { event with outcome := "failed" }⟩)) :=
    finish_conduct hl fun _ _ heq => by cases heq
  refine yields_bind (P := fun _ _ => True) (yields_request hmay fun _ => trivial) ?_
  intro l' answer _ _
  cases answer <;> exact yields_pure trivial

/-- **a failure of Garage is completed in order, a success goes on** -/
theorem garageOrFail_conduct {x : Execution} {details : Value}
    {program : GarageM GarageBackendError α} {P : CallLog → α → Prop}
    (h : (onGarage program).Yields Conduct P log) (hu : Unfinished log) :
    (garageOrFail x details program).Yields Conduct (fun l a => P l a ∧ Unfinished l) log := by
  refine yields_bind (yields_attempt (garage_unfinished h.obeys hu)) fun l answer _ hl => ?_
  cases answer with
  | ok a => exact yields_pure ⟨hl.1 a rfl, hl.2⟩
  | error e => exact failWith_conduct hl.2

theorem plainGarage_conduct {x : Execution} {details : Value}
    {program : GarageM GarageBackendError α} (h : Asks Call.plain (onGarage program))
    (hu : Unfinished log) :
    (garageOrFail x details program).Yields Conduct (fun l _ => Unfinished l) log := by
  have hp : (onGarage program).Yields Conduct (fun l _ => Unfinished l) log :=
    ⟨(h.unfinished hu).mono fun _ _ hr _ _ => hr⟩
  exact (garageOrFail_conduct hp hu).mono fun _ _ _ hl => hl.2

theorem reconciledBucketId_conduct {x : Execution} {command : ReconcileCommand}
    {context : ReconcileContext} (hu : Unfinished log) :
    (reconciledBucketId x command context).Yields Conduct (fun l _ => Unfinished l) log := by
  unfold reconciledBucketId
  split
  · split
    · exact yields_pure hu
    · exact yields_throw
  · refine yields_bind (minor_conduct renew_minor hu) fun l₁ _ _ h₁ => ?_
    exact yields_bind (plainGarage_conduct reconcileBucket_plain h₁) fun _ _ _ h => yields_pure h

theorem usageForDeletion_conduct {x : Execution} {command : DeleteCommand} {b : String}
    (hu : Unfinished log) :
    (usageForDeletion x command b).Yields Conduct (fun l _ => Unfinished l) log := by
  refine yields_bind (yields_attempt (bucketUsage_plain.unfinished hu)) fun l answer _ hl => ?_
  cases answer with
  | ok usage => exact yields_pure hl
  | error e =>
    cases e with
    | notFound message => exact yields_pure hl
    | _ => exact failWith_conduct hl

theorem requireEmpty_conduct {x : Execution} {command : DeleteCommand} {usage : BucketUsage}
    (hu : Unfinished log) :
    (requireEmpty x command usage).Yields Conduct (fun l _ => Unfinished l) log := by
  unfold requireEmpty
  split
  · exact yields_pure hu
  · refine yields_bind (minor_conduct audit_minor hu) fun l event _ hl => ?_
    have hmay : Conduct l (.store (.finish ⟨.fail x.operation, x.operationId,
        bucketNotEmpty.storedResponse, { event with outcome := "failed" }⟩)) :=
      finish_conduct hl fun _ _ heq => by cases heq
    refine yields_bind (P := fun _ _ => True) ?_ fun _ _ _ _ => yields_throw
    refine yields_bind (P := fun _ _ => True) (yields_request hmay fun _ => trivial) ?_
    exact fun _ _ _ _ => yields_ofExcept fun _ _ => trivial

theorem revokeKeys_conduct {x : Execution} {command : DeleteCommand} (ids : List String)
    (hu : Unfinished log) :
    (revokeKeys x command ids).Yields Conduct (fun l _ => Unfinished l) log := by
  induction ids generalizing log with
  | nil => exact yields_pure hu
  | cons id rest ih =>
    refine yields_bind (minor_conduct renew_minor hu) fun l₁ _ _ h₁ => ?_
    refine yields_bind (plainGarage_conduct (revokeCredential_asks rfl) h₁) fun l₂ _ _ h₂ => ?_
    exact ih h₂

theorem revokeKey_conduct {x : Execution} {context : RevokeCredentialContext}
    (hu : Unfinished log) :
    (revokeKey x context).Yields Conduct (fun l _ => Unfinished l) log := by
  unfold revokeKey
  split
  · exact yields_pure hu
  · exact plainGarage_conduct (revokeCredential_asks rfl) hu

/-- an execution that has lost its lease goes on, for its completion did not succeed -/
theorem completingCreate_conduct {command : CreateCredentialCommand} {credential : NewCredential}
    {o : Uuid} {response : StoredHttpResponse} {event : AuditEvent}
    (h : Held credential.garageKeyId log) :
    (completingCreate ⟨.createCredential command credential, o, response, event⟩
      credential.garageKeyId).Yields Conduct (fun _ _ => True) log := by
  have hmay : Conduct log
      (.store (.finish ⟨.createCredential command credential, o, response, event⟩)) := by
    refine finish_conduct h.1 fun command' credential' heq => ?_
    cases heq
    exact h.2
  refine yields_bind (P := fun l answer => l = log ++ [⟨.store (.finish
    ⟨.createCredential command credential, o, response, event⟩), answer⟩])
    (yields_request hmay fun _ => rfl) fun l answer _ hl => ?_
  cases answer with
  | ok u => exact yields_ofExcept fun _ _ => trivial
  | error e =>
    have hu : Unfinished l := by
      rw [hl]
      exact h.1.append fun _ heq => by cases heq
    cases e with
    | operationLeaseLost current =>
      have hask : Asks Call.plain (onGarage (GarageAdapter.revokeCredential
        credential.garageKeyId)) := revokeCredential_asks rfl
      exact yields_bind (yields_attempt (hask.unfinished hu)) fun _ _ _ _ => yields_throw
    | _ => exact yields_throw

/-! ## the handlers -/

/-- the log of an execution that begins -/
theorem early_granted {call : PrepareCall} {o : Uuid} {context : call.Context} :
    Early [⟨.store (.prepare call), Except.ok (Prepare.execute o context)⟩] := by
  refine ⟨fun finish hmem => ?_, fun b k p a hmem => ?_⟩ <;> cases List.mem_singleton.mp hmem

/-- keys are listed after the lease was renewed -/
theorem renewed_conduct {command : CreateCredentialCommand} {o : Uuid}
    {context : CreateCredentialContext} :
    (renewOperation command.operation o).Yields Conduct
      (fun l _ => Early l ∧ Conduct l (.garage .listKeys))
      [⟨.store (.prepare (.createCredential command)), Except.ok (Prepare.execute o context)⟩] := by
  have hearly := @early_granted (.createCredential command) o context
  have hmay : Conduct _ (.store (.renewOperation command.operation o)) := .plain hearly.1 rfl
  refine ⟨⟨hmay, fun answer => ?_⟩⟩
  cases answer with
  | error e => exact fun _ hr => by cases hr
  | ok u =>
    intro _ _
    have hu : Unfinished ([⟨.store (.prepare (.createCredential command)),
        Except.ok (Prepare.execute o context)⟩] ++
        [⟨.store (.renewOperation command.operation o), Except.ok u⟩]) :=
      hearly.1.append fun _ heq => by cases heq
    refine ⟨⟨hu, hearly.2.append fun _ _ _ heq => by cases heq⟩, hu, fun _ heq => (by cases heq), ?_,
      fun he => (by cases he), fun _ _ _ _ _ heq => by cases heq⟩
    intro _ call o' context' hg
    rcases List.mem_append.mp hg with hg | hg
    · cases List.mem_singleton.mp hg
      exact List.mem_append_right _ List.mem_cons_self
    · cases List.mem_singleton.mp hg

/-- **an execution keeps the order** -/
theorem Executes.conduct {state : AppState} {r : Request} {call : PrepareCall}
    {execute : Uuid → call.Context → HandlerM ApiError Response} (h : Executes state r call execute)
    (o : Uuid) (context : call.Context) :
    (execute o context).Yields Conduct (fun _ _ => True)
      [⟨.store (.prepare call), Except.ok (Prepare.execute o context)⟩] := by
  have hu := (@early_granted call o context).1
  cases h with
  | reconcile _ =>
    refine yields_bind (reconciledBucketId_conduct hu) fun _ _ _ h₁ => ?_
    refine yields_ofExcept_bind fun _ _ => ?_
    refine yields_bind (minor_conduct utcNow_minor h₁) fun _ _ _ h₂ => ?_
    refine yields_bind (minor_conduct audit_minor h₂) fun _ _ _ h₃ => ?_
    exact completing_conduct h₃ fun _ _ heq => by cases heq
  | delete _ =>
    unfold executeDelete
    split
    · exact yields_throw
    · refine yields_bind (minor_conduct renew_minor hu) fun _ _ _ h₁ => ?_
      refine yields_bind (usageForDeletion_conduct h₁) fun _ _ _ h₂ => ?_
      refine yields_bind (requireEmpty_conduct h₂) fun _ _ _ h₃ => ?_
      refine yields_bind (revokeKeys_conduct _ h₃) fun _ _ _ h₄ => ?_
      refine yields_bind (minor_conduct renew_minor h₄) fun _ _ _ h₅ => ?_
      refine yields_bind (plainGarage_conduct deleteBucket_plain h₅) fun _ _ _ h₆ => ?_
      refine yields_ofExcept_bind fun _ _ => ?_
      refine yields_bind (minor_conduct utcNow_minor h₆) fun _ _ _ h₇ => ?_
      refine yields_bind (minor_conduct audit_minor h₇) fun _ _ _ h₈ => ?_
      exact completing_conduct h₈ fun _ _ heq => by cases heq
  | createCredential _ =>
    unfold executeCreate
    split
    · exact yields_throw
    · refine yields_bind renewed_conduct fun l₁ _ _ h₁ => ?_
      refine yields_bind (garageOrFail_conduct (createCredential_conduct h₁.1 h₁.2) h₁.1.1)
        fun l₂ issued _ h₂ => ?_
      refine yields_bind (held_conduct utcNow_minor h₂.1) fun _ _ _ h₃ => ?_
      refine yields_bind (held_conduct audit_minor h₃) fun _ _ _ h₄ => ?_
      exact completingCreate_conduct h₄
  | revokeCredential _ =>
    refine yields_bind (minor_conduct renew_minor hu) fun _ _ _ h₁ => ?_
    refine yields_bind (revokeKey_conduct h₁) fun _ _ _ h₂ => ?_
    refine yields_bind (minor_conduct audit_minor h₂) fun _ _ _ h₃ => ?_
    exact completing_conduct h₃ fun _ _ heq => by cases heq

/-- **every handler keeps the order** -/
theorem handle_conduct (state : AppState) (r : Request) :
    (handle state r).Obeys Conduct (fun _ _ => True) [] := by
  cases hcall : r.prepareCall state with
  | error e =>
    rw [handle_refused hcall]
    trivial
  | ok call =>
    obtain ⟨execute, hhandle, hexec⟩ := handle_executes hcall
    have hmay : Conduct [] (.store (.prepare call)) :=
      ⟨unfinished_nil, fun _ _ => rfl, (fun heq => by cases heq), (fun he => by cases he),
        fun _ _ _ _ _ heq => by cases heq⟩
    rw [hhandle]
    refine (yields_bind (Q := fun _ _ => True)
      (P := fun l answer => l = [⟨.store (.prepare call), Except.ok answer⟩]) ?_ ?_).obeys.mono
      fun _ _ _ => trivial
    · refine ⟨⟨hmay, fun a => ?_⟩⟩
      cases a with
      | error e => exact fun _ hr => by cases hr
      | ok answer =>
        intro answer' hr
        obtain rfl := Except.ok.inj hr
        rfl
    · intro l answer _ hl
      cases answer with
      | execute o context =>
        subst hl
        exact hexec.conduct o context
      | replay stored => exact yields_ofExcept fun _ _ => trivial
      | inProgress o => exact yields_ofExcept fun _ _ => trivial

end

end Syouyu
