import Syouyu.System.Conduct
import Syouyu.System.Isolation
import Syouyu.Store.Reservations

/-!
# Executions that were superseded are fenced off

A create deletes every key it finds under its own name.  An execution whose lease was taken over may
still be at work on keys, and so may a later one: what keeps them off the key of the execution that
completes is the reservation, which follows the operation id.

* `Timely`            what is assumed of a step: ids handed out are new ones, and keys are listed
                      while the receipt is held;
* `World.Fenced`      the invariant: every credential has an author, who made its key alone, and a
                      key that someone has listed to delete it belongs to no credential, now or later;
* `World.Fenced.act`  **a timely call of a handler keeps it**.
-/

set_option linter.unusedSectionVars false

namespace Syouyu
open Lib

/-! ## what the logs say -/

/-- the operation id was handed out to the program -/
def Given (log : CallLog) (o : Uuid) : Prop :=
  ∃ (call : PrepareCall) (context : call.Context), Granted log call o context

/-- the program made the key -/
def Made (log : CallLog) (k : String) : Prop :=
  ∃ (request : CreateKeyRequest) (key : AccessKey), Answered log (.createKey request) key ∧
    key.accessKeyId = k

/-- the program made the key for its credential, under this operation id -/
def Creator (log : CallLog) (o : Uuid) (k : String) : Prop :=
  ∃ (command : CreateCredentialCommand) (context : CreateCredentialContext) (key : AccessKey),
    Granted log (.createCredential command) o context ∧
    Answered log (.createKey (keyRequest command context)) key ∧ key.accessKeyId = k

/-- the program found the key under its own name -/
def Lists (log : CallLog) (k : String) : Prop :=
  ∃ (command : CreateCredentialCommand) (o : Uuid) (context : CreateCredentialContext)
    (keys : List AccessKeySummary) (key : AccessKeySummary),
    Granted log (.createCredential command) o context ∧ Answered log .listKeys keys ∧ key ∈ keys ∧
    key.name = (keyRequest command context).name ∧ key.id = k

/-- the program made the credential and has completed its operation -/
def Author (log : CallLog) (c : CredentialRow) : Prop :=
  ∃ (command : CreateCredentialCommand) (o : Uuid) (context : CreateCredentialContext),
    Granted log (.createCredential command) o context ∧ context.credentialId = c.id ∧
    command.operation.serviceInstanceId = c.serviceInstanceId ∧
    command.permissions.toValue = c.permissions ∧ Issued log command context c.garageKeyId ∧
    ¬ Unfinished log

/-- no reservation is left to the operation id -/
def Database.Spent (db : Database) (o : Uuid) : Prop :=
  ∀ r ∈ db.credentialReservations.rows, r.operationId ≠ o

section
variable {log log' : CallLog} {x : (e : Call) × e.Answer} {o : Uuid} {k : String}

theorem executes_prepare (h : executes x = true) : ∃ call, x.1 = .store (.prepare call) := by
  obtain ⟨e, a⟩ := x
  cases e with
  | store call =>
    cases call with
    | prepare call => exact ⟨call, rfl⟩
    | _ => cases h
  | _ => cases h

theorem Creator.made (h : Creator log o k) : Made log k := by
  obtain ⟨command, context, key, -, hkey, hk⟩ := h
  exact ⟨_, key, hkey, hk⟩

theorem Author.mono {c : CredentialRow} (h : Author log c) (hsub : log ⊆ log') : Author log' c := by
  obtain ⟨command, o, context, hg, hid, hs, hp, hissued, hfinished⟩ := h
  exact ⟨command, o, context, hg.mono hsub, hid, hs, hp, hissued.mono hsub,
    fun hu => hfinished fun finish hmem => hu finish (hsub hmem)⟩

theorem Author.creator {c : CredentialRow} (h : Author log c) : ∃ o, Creator log o c.garageKeyId := by
  obtain ⟨command, o, context, hg, -, -, -, ⟨⟨key, hkey, hk⟩, -⟩, -⟩ := h
  exact ⟨o, command, context, key, hg, hkey, hk⟩

theorem given_append (h : Given (log ++ [x]) o) :
    Given log o ∨ ∃ (call : PrepareCall) (context : call.Context),
      x = ⟨.store (.prepare call), Except.ok (Prepare.execute o context)⟩ := by
  obtain ⟨call, context, hmem⟩ := h
  rcases List.mem_append.mp hmem with hmem | hmem
  · exact .inl ⟨call, context, hmem⟩
  · exact .inr ⟨call, context, (List.mem_singleton.mp hmem).symm⟩

theorem made_append (h : Made (log ++ [x]) k) :
    Made log k ∨ ∃ request key, x = ⟨.garage (.createKey request), Except.ok key⟩ ∧
      AccessKey.accessKeyId key = k := by
  obtain ⟨request, key, hmem, hk⟩ := h
  rcases List.mem_append.mp hmem with hmem | hmem
  · exact .inl ⟨request, key, hmem, hk⟩
  · exact .inr ⟨request, key, (List.mem_singleton.mp hmem).symm, hk⟩

/-- only a program that has asked for nothing yet is granted anything -/
theorem granted_append (hfirst : ∀ call, x.1 = .store (.prepare call) → log = [])
    {call : PrepareCall} {context : call.Context} (h : Granted (log ++ [x]) call o context)
    {y : (e : Call) × e.Answer} (hy : y ∈ log) : Granted log call o context := by
  rcases List.mem_append.mp h with h | h
  · exact h
  · have hnil := hfirst call (congrArg Sigma.fst (List.mem_singleton.mp h).symm)
    rw [hnil] at hy
    cases hy

theorem creator_append (hfirst : ∀ call, x.1 = .store (.prepare call) → log = [])
    (h : Creator (log ++ [x]) o k) :
    Creator log o k ∨ ∃ request key, x = ⟨.garage (.createKey request), Except.ok key⟩ ∧
      AccessKey.accessKeyId key = k := by
  obtain ⟨command, context, key, hg, hmem, hk⟩ := h
  rcases List.mem_append.mp hmem with hmem | hmem
  · exact .inl ⟨command, context, key, granted_append hfirst hg hmem, hmem, hk⟩
  · exact .inr ⟨_, key, (List.mem_singleton.mp hmem).symm, hk⟩

theorem lists_append (hfirst : ∀ call, x.1 = .store (.prepare call) → log = [])
    (h : Lists (log ++ [x]) k) :
    Lists log k ∨ ∃ keys : List AccessKeySummary, x = ⟨.garage .listKeys, Except.ok keys⟩ ∧
      ∃ (command : CreateCredentialCommand) (o : Uuid) (context : CreateCredentialContext)
        (key : AccessKeySummary), Granted log (.createCredential command) o context ∧ key ∈ keys ∧
        key.name = (keyRequest command context).name ∧ key.id = k := by
  obtain ⟨command, o, context, keys, key, hg, hmem, hkey, hname, hk⟩ := h
  rcases List.mem_append.mp hmem with hmem | hmem
  · exact .inl ⟨command, o, context, keys, key, granted_append hfirst hg hmem, hmem, hkey, hname, hk⟩
  · have hx := (List.mem_singleton.mp hmem).symm
    refine .inr ⟨keys, hx, command, o, context, key, ?_, hkey, hname, hk⟩
    rcases List.mem_append.mp hg with hg | hg
    · exact hg
    · rw [hx] at hg
      cases List.mem_singleton.mp hg

end

/-! ## reservations and the ids handed out -/

section
variable {store : PgStore} {env : CallEnv} {db db' : Database} {call : StoreCall}
  {answer : Except StoreError call.Result}

/-- **a reservation that is not as it was has the operation id just handed out** -/
theorem reservation_given (h : StoreStep store db ⟨env, call, answer⟩ db')
    {c : CredentialReservationRow} (hc : c ∈ db'.credentialReservations.rows) :
    c ∈ db.credentialReservations.rows ∨
    ∃ (prepare : PrepareCall) (context : prepare.Context),
      (⟨.store call, answer⟩ : (e : Call) × e.Answer) =
        ⟨.store (.prepare prepare), Except.ok (Prepare.execute c.operationId context)⟩ := by
  have hkind := operation_change h
  cases step_cases h with
  | quiet _ => exact .inl hc
  | @executed _ prepare o context _ hexec =>
    have ho : o = env.operationId := (prepare_executed hexec).1
    cases hkind with
    | same _ hr => exact .inl (hr ▸ hc)
    | granted _ _ hr _ => exact .inl (hr ▸ hc)
    | @reserved command _ _ hu =>
      rcases (Table.mem_insert hu).mp hc with hc | rfl
      · exact .inl hc
      · subst ho
        exact .inr ⟨_, context, rfl⟩
    | takenOver _ _ _ _ _ hu =>
      obtain ⟨c₀, hc₀, rfl⟩ := (Table.mem_updateWhere hu).mp hc
      unfold Table.touch
      split
      · subst ho
        exact .inr ⟨prepare, context, rfl⟩
      · exact .inl hc₀
  | finished _ =>
    cases hkind with
    | same _ hr => exact .inl (hr ▸ hc)
    | finished _ _ _ _ _ hr => exact .inl (Table.mem_deleteWhere.mp (hr ▸ hc)).1
  | renewed _ =>
    cases hkind with
    | same _ hr => exact .inl (hr ▸ hc)
    | renewed _ _ _ _ _ hr => exact .inl (hr ▸ hc)
  | measured _ =>
    cases hkind with
    | same _ hr => exact .inl (hr ▸ hc)
  | audited _ =>
    cases hkind with
    | same _ hr => exact .inl (hr ▸ hc)

/-- a reservation under a new credential id was made by the call that answered with it -/
theorem reservation_drawn (h : StoreStep store db ⟨env, call, answer⟩ db')
    {c : CredentialReservationRow} (hc : c ∈ db'.credentialReservations.rows) :
    (∃ c₀ ∈ db.credentialReservations.rows, c₀.credentialId = c.credentialId) ∨
    ∃ (command : CreateCredentialCommand) (o : Uuid) (context : CreateCredentialContext),
      (⟨.store call, answer⟩ : (e : Call) × e.Answer) =
        ⟨.store (.prepare (.createCredential command)), Except.ok (Prepare.execute o context)⟩ ∧
      context.credentialId = c.credentialId ∧
      db.receipts.lookup command.operation.idempotencyKey = none := by
  rcases reservation_origin h hc with ⟨c₀, hc₀, hsame⟩ | ⟨command, hcall, hnone, hinsert, hrow⟩
  · exact .inl ⟨c₀, hc₀, by rw [hsame]⟩
  · obtain rfl : call = .prepare (.createCredential command) := hcall
    cases step_cases h with
    | quiet _ =>
      exact absurd_none_some (Table.lookup_fresh hinsert) (Table.lookup_inserted hinsert)
    | @executed _ _ o context _ hexec =>
      refine .inr ⟨command, o, context, rfl, ?_, hnone⟩
      obtain ⟨-, claimed, db₁, hclaimed, hbody⟩ := prepare_body hexec
      obtain ⟨-, -, -, ⟨row, hl, -⟩ | ⟨-, -, hid, -⟩⟩ := create_prepared hclaimed hbody
      · exact absurd_none_some hnone hl
      · rw [hrow]
        exact hid

/-- the entry completes the creation of the credential, whose reservation is held -/
def World.Creates (w : World) (log : CallLog) (x : (e : Call) × e.Answer) (c : CredentialRow) :
    Prop :=
  ∃ (finish : FinishCall) (command : CreateCredentialCommand) (credential : NewCredential)
    (context : CreateCredentialContext), x = ⟨.store (.finish finish), Except.ok ()⟩ ∧
    finish.completion = .createCredential command credential ∧
    credential.garageKeyId = c.garageKeyId ∧
    Granted log (.createCredential command) finish.operationId context ∧
    context.credentialId = c.id ∧ command.operation.serviceInstanceId = c.serviceInstanceId ∧
    command.permissions.toValue = c.permissions ∧ Issued log command context c.garageKeyId ∧
    ¬ w.db.Spent finish.operationId

/-- what stays of a credential -/
structure CredentialRow.Same (c₀ c : CredentialRow) : Prop where
  id : c₀.id = c.id
  service : c₀.serviceInstanceId = c.serviceInstanceId
  permissions : c₀.permissions = c.permissions
  garageKeyId : c₀.garageKeyId = c.garageKeyId

theorem CredentialRow.Same.refl (c : CredentialRow) : c.Same c := ⟨rfl, rfl, rfl, rfl⟩

/-- **where a credential comes from**: it was there, or it is created under its reservation -/
theorem credential_made {w w' : World} {r : Request} {log : CallLog}
    (hlog : ∀ x ∈ log, w.Attests x) (hmay : May r log (.store call))
    (h : StoreStep store w.db ⟨env, call, answer⟩ w'.db) {c : CredentialRow}
    (hc : c ∈ w'.db.credentials.rows) :
    (∃ c₀ ∈ w.db.credentials.rows, c₀.Same c) ∨ w.Creates log ⟨.store call, answer⟩ c := by
  cases answer with
  | error e =>
    rw [step_error h] at hc
    exact .inl ⟨c, hc, .refl c⟩
  | ok a =>
    cases credential_written h hc with
    | kept hold => exact .inl ⟨c, hold, .refl c⟩
    | dropped _ _ hold _ _ => exact .inl ⟨_, hold, rfl, rfl, rfl, rfl⟩
    | revoked _ _ hl => exact .inl ⟨_, Table.lookup_mem hl, rfl, rfl, rfl, rfl⟩
    | @created finish command credential hheld hcomp =>
      obtain ⟨context, hg, hid, hissued⟩ := hmay.completes.created hcomp
      have hpre := (finish_eq_ok.mp (step_finished h)).1
      rw [hcomp] at hpre
      simp only [Completion.precheck, Bool.and_eq_true, decide_eq_true_eq] at hpre
      rw [show finish.operation = command.operation from congrArg Completion.operation hcomp]
        at hheld
      obtain ⟨-, receipt, hreceipt, row, hrow, ho, -⟩ :=
        completed_observed hlog (.createCredential command) hg hheld
      obtain ⟨held, hl, -, hop, -⟩ := hheld
      obtain rfl : held = receipt := Option.some.inj (hl.symm.trans hreceipt)
      exact .inr ⟨finish, command, credential, context, rfl, hcomp, rfl, hg, hid.symm, rfl,
        congrArg BucketPermissions.toValue hpre.2.symm, hissued,
        fun hspent => hspent row hrow (ho.trans hop)⟩

end

/-! ## the invariant -/

/-- what is assumed of the ids in an entry: an operation id is handed out once, a credential id to
one operation -/
structure Unused (L : Nat → CallLog) (x : (e : Call) × e.Answer) : Prop where
  operationId : ∀ {call : PrepareCall} {o : Uuid} {context : call.Context},
    x = ⟨.store (.prepare call), Except.ok (Prepare.execute o context)⟩ → ∀ j, ¬ Given (L j) o
  credentialId : ∀ {command command' : CreateCredentialCommand} {o o' : Uuid}
    {context context' : CreateCredentialContext} {j : Nat},
    x = ⟨.store (.prepare (.createCredential command)), Except.ok (Prepare.execute o context)⟩ →
    Granted (L j) (.createCredential command') o' context' →
    context'.credentialId = context.credentialId →
    command'.operation.idempotencyKey = command.operation.idempotencyKey

/-- what is assumed of an entry: its ids are new, and keys are listed while the receipt is held -/
structure Timely (w : World) (L : Nat → CallLog) (i : Nat) (x : (e : Call) × e.Answer) : Prop
    extends Unused L x where
  listed : x.1 = .garage .listKeys → ∀ {call : PrepareCall} {o : Uuid} {context : call.Context},
    Granted (L i) call o context → w.db.HeldBy call.operation o

/-- everyone keeps off the keys of credentials -/
structure World.Fenced (w : World) (L : Nat → CallLog) : Prop where
  head : ∀ {i : Nat} {x : (e : Call) × e.Answer}, x ∈ L i → executes x = true →
    (L i).head? = some x
  given : ∀ {i j : Nat} {o : Uuid}, Given (L i) o → Given (L j) o → i = j
  reserved : ∀ {i : Nat} {command : CreateCredentialCommand} {o : Uuid}
    {context : CreateCredentialContext}, Granted (L i) (.createCredential command) o context →
    ∀ c ∈ w.db.credentialReservations.rows, c.operationId = o →
    c.credentialId = context.credentialId
  distinct : ∀ c ∈ w.db.credentialReservations.rows, ∀ d ∈ w.db.credentials.rows,
    c.credentialId ≠ d.id
  authored : ∀ c ∈ w.db.credentials.rows, ∃ i, Author (L i) c
  made : ∀ {i j : Nat} {k : String}, Made (L i) k → Made (L j) k → i = j
  unlisted : ∀ {i : Nat} {k : String}, Lists (L i) k →
    ∀ c ∈ w.db.credentials.rows, c.garageKeyId ≠ k
  spent : ∀ {i j : Nat} {o : Uuid} {k : String}, Lists (L i) k → Creator (L j) o k →
    w.db.Spent o

/-- what is known of a world and its logs besides -/
structure World.Attested (store : PgStore) (start : Garage) (w : World) (L : Nat → CallLog) :
    Prop where
  truthful : w.Truthful store
  isolated : w.Isolated start
  attests : ∀ i, ∀ x ∈ L i, w.Attests x
  ties : ∀ i, ∀ x ∈ L i, w.Ties start x

theorem Author.congr {log : CallLog} {c₀ c : CredentialRow} (h : Author log c₀) (hc : c₀.Same c) :
    Author log c := by
  obtain ⟨command, o, context, hg, hid, hs, hp, hissued, hfinished⟩ := h
  exact ⟨command, o, context, hg, hid.trans hc.id, hs.trans hc.service, hp.trans hc.permissions,
    hc.garageKeyId ▸ hissued, hfinished⟩

section
variable {store : PgStore} {start : Garage} {w w' : World} {L : Nat → CallLog} {i : Nat} {e : Call}
  {a : e.Answer} {r : Request}

/-- an execution was granted once -/
theorem World.Fenced.granted_once (hf : w.Fenced L) {j : Nat} {call call' : PrepareCall}
    {o o' : Uuid} {context : call.Context} {context' : call'.Context}
    (h : Granted (L j) call o context) (h' : Granted (L j) call' o' context') :
    (⟨call', o', context'⟩ : (call : PrepareCall) × Uuid × call.Context) = ⟨call, o, context⟩ := by
  have heq := Option.some.inj ((hf.head h' rfl).symm.trans (hf.head h rfl))
  cases heq
  rfl

theorem World.Fenced.grant_unique (hf : w.Fenced L) {j : Nat}
    {command command' : CreateCredentialCommand} {o o' : Uuid}
    {context context' : CreateCredentialContext}
    (h : Granted (L j) (.createCredential command) o context)
    (h' : Granted (L j) (.createCredential command') o' context') :
    command' = command ∧ o' = o ∧ context' = context := by
  cases hf.granted_once h h'
  exact ⟨rfl, rfl, rfl⟩

/-- the log of one program has grown -/
theorem log_grown {x : (e : Call) × e.Answer} {P : CallLog → Prop} {j : Nat}
    (h : P (Function.update L i (L i ++ [x]) j)) : (j = i ∧ P (L i ++ [x])) ∨ P (L j) := by
  by_cases hj : j = i
  · subst hj
    rw [Function.update_self] at h
    exact .inl ⟨rfl, h⟩
  · rw [Function.update_of_ne hj] at h
    exact .inr h

theorem log_subset (x : (e : Call) × e.Answer) (j : Nat) :
    L j ⊆ Function.update L i (L i ++ [x]) j := by
  by_cases hj : j = i
  · subst hj
    rw [Function.update_self]
    exact List.subset_append_left _ _
  · rw [Function.update_of_ne hj]
    exact List.Subset.refl _

/-! ### what the world allows -/

theorem effect_reservation (h : World.Effect store Garage.Documented w e a w')
    {c : CredentialReservationRow} (hc : c ∈ w'.db.credentialReservations.rows) :
    c ∈ w.db.credentialReservations.rows ∨
    ∃ (prepare : PrepareCall) (context : prepare.Context), (⟨e, a⟩ : (e : Call) × e.Answer) =
      ⟨.store (.prepare prepare), Except.ok (Prepare.execute c.operationId context)⟩ := by
  cases e with
  | store call =>
    obtain ⟨⟨env, hstep⟩, -⟩ := h
    exact reservation_given hstep hc
  | garage call => exact .inl (h.2 ▸ hc)
  | query q =>
    obtain rfl : w' = w := h.2
    exact .inl hc

theorem effect_credential (hw : w.Attested store start L) (hmay : May r (L i) e)
    (h : World.Effect store Garage.Documented w e a w') {c : CredentialRow}
    (hc : c ∈ w'.db.credentials.rows) :
    (∃ c₀ ∈ w.db.credentials.rows, c₀.Same c) ∨ w.Creates (L i) ⟨e, a⟩ c := by
  cases e with
  | store call =>
    obtain ⟨⟨env, hstep⟩, -⟩ := h
    exact credential_made (hw.attests i) hmay hstep hc
  | garage call => exact .inl ⟨c, h.2 ▸ hc, .refl c⟩
  | query q =>
    obtain rfl : w' = w := h.2
    exact .inl ⟨c, hc, .refl c⟩

/-- an operation id that was handed out before gets no reservation any more -/
theorem Database.Spent.effect {o : Uuid} {j : Nat} (hs : w.db.Spent o) (hgiven : Given (L j) o)
    (ht : Timely w L i ⟨e, a⟩) (h : World.Effect store Garage.Documented w e a w') :
    w'.db.Spent o := by
  intro c hc ho
  rcases effect_reservation h hc with hold | ⟨prepare, context, heq⟩
  · exact hs c hold ho
  · exact ht.operationId heq j (ho ▸ hgiven)

/-- **who lists a key in time**: the reservation of its credential id is held by the lister -/
theorem listed_reservation (hw : w.Attested store start L) {keys : List AccessKeySummary}
    (ht : Timely w L i ⟨.garage .listKeys, Except.ok keys⟩)
    (h : w.garage.Documented .listKeys (.ok keys) w'.garage)
    {command : CreateCredentialCommand} {o : Uuid} {context : CreateCredentialContext}
    (hg : Granted (L i) (.createCredential command) o context) {key : AccessKeySummary}
    (hkey : key ∈ keys) (hname : key.name = (keyRequest command context).name) {j : Nat}
    {command' : CreateCredentialCommand} {context' : CreateCredentialContext} {made : AccessKey}
    (hmade : Answered (L j) (.createKey (keyRequest command' context')) made)
    (hk : made.accessKeyId = key.id) :
    ∃ c ∈ w.db.credentialReservations.rows, c.operationId = o ∧
      c.credentialId = context'.credentialId := by
  -- the names agree, and so do the credential ids
  have hsame : context.credentialId = context'.credentialId := by
    obtain ⟨d, hserve⟩ := h.answered
    obtain ⟨rfl, -⟩ := Prod.mk.inj (Except.ok.inj hserve)
    obtain ⟨row, hrow, rfl⟩ := List.mem_map.mp hkey
    have hrowName := ((hw.ties j _ hmade).created rfl).2 row hrow hk.symm
    exact (deterministicName_inj (hname.symm.trans hrowName)).2
  have hheld := ht.listed rfl hg
  obtain ⟨-, receipt, hreceipt, c, hc, ho, -, hid⟩ :=
    completed_observed (hw.attests i) (.createCredential command) hg hheld
  obtain ⟨held, hl, -, hop, -⟩ := hheld
  obtain rfl : held = receipt := Option.some.inj (hl.symm.trans hreceipt)
  exact ⟨c, hc, ho.trans hop, hid.trans hsame⟩

/-! ### each part is kept -/

variable (hw : w.Attested store start L) (hf : w.Fenced L) (ht : Timely w L i ⟨e, a⟩)
  (hmay : May r (L i) e) (hcond : Conduct (L i) e)
  (heff : World.Effect store Garage.Documented w e a w')

include hf hcond in
theorem head_kept {j : Nat} {x : (e : Call) × e.Answer}
    (hx : x ∈ Function.update L i (L i ++ [⟨e, a⟩]) j) (hexec : executes x = true) :
    (Function.update L i (L i ++ [⟨e, a⟩]) j).head? = some x := by
  by_cases hj : j = i
  · subst hj
    rw [Function.update_self] at hx ⊢
    rw [List.head?_append]
    rcases List.mem_append.mp hx with hx | hx
    · rw [hf.head hx hexec]
      rfl
    · obtain rfl := List.mem_singleton.mp hx
      obtain ⟨call, hcall⟩ := executes_prepare hexec
      rw [hcond.prepare call hcall]
      rfl
  · rw [Function.update_of_ne hj] at hx ⊢
    exact hf.head hx hexec

include hf ht in
theorem given_kept {j j' : Nat} {o : Uuid} (h : Given (Function.update L i (L i ++ [⟨e, a⟩]) j) o)
    (h' : Given (Function.update L i (L i ++ [⟨e, a⟩]) j') o) : j = j' := by
  have hcases : ∀ {j : Nat}, Given (Function.update L i (L i ++ [⟨e, a⟩]) j) o →
      Given (L j) o ∨ j = i ∧ ∃ (call : PrepareCall) (context : call.Context),
        (⟨e, a⟩ : (e : Call) × e.Answer) =
          ⟨.store (.prepare call), Except.ok (Prepare.execute o context)⟩ := by
    intro j h
    rcases log_grown (P := fun l => Given l o) h with ⟨rfl, h⟩ | h
    · exact (given_append h).imp_right fun h => ⟨rfl, h⟩
    · exact .inl h
  rcases hcases h with h | ⟨rfl, call, context, heq⟩
  · rcases hcases h' with h' | ⟨-, call, context, heq⟩
    · exact hf.given h h'
    · exact absurd h (ht.operationId heq j)
  · rcases hcases h' with h' | ⟨rfl, -⟩
    · exact absurd h' (ht.operationId heq j')
    · rfl

include hf ht heff in
theorem reserved_kept {j : Nat} {command : CreateCredentialCommand} {o : Uuid}
    {context : CreateCredentialContext}
    (hg : Granted (Function.update L i (L i ++ [⟨e, a⟩]) j) (.createCredential command) o context)
    (c : CredentialReservationRow) (hc : c ∈ w'.db.credentialReservations.rows)
    (ho : c.operationId = o) : c.credentialId = context.credentialId := by
  have hold : ∀ j, Granted (L j) (.createCredential command) o context →
      c.credentialId = context.credentialId := by
    intro j hg
    rcases effect_reservation heff hc with hc | ⟨prepare, context', heq⟩
    · exact hf.reserved hg c hc ho
    · exact absurd ⟨_, _, ho ▸ hg⟩ (ht.operationId heq j)
  rcases log_grown (P := fun l => Granted l (.createCredential command) o context) hg
    with ⟨-, hg⟩ | hg
  · rcases List.mem_append.mp hg with hg | hg
    · exact hold i hg
    · -- the reservation of the call that is granted
      cases List.mem_singleton.mp hg
      obtain ⟨⟨env, hstep⟩, -⟩ := heff
      have hexec : (PrepareCall.createCredential command).exec store env w.db =
        .ok (.execute o context, w'.db) := step_ok hstep
      obtain ⟨row, hrow, -, hop, -⟩ := executed_receipt hexec
      obtain ⟨-, receipt, hreceipt, c', hc', ho', -, hid⟩ := prepare_observed hexec
      obtain rfl : row = receipt := Option.some.inj (hrow.symm.trans hreceipt)
      obtain rfl : c = c' := reservation_unique hc hc' (ho.trans (ho'.trans hop).symm)
      exact hid
  · exact hold j hg

include hw hf ht hmay heff in
theorem distinct_kept (c : CredentialReservationRow)
    (hc : c ∈ w'.db.credentialReservations.rows) (d : CredentialRow)
    (hd : d ∈ w'.db.credentials.rows) : c.credentialId ≠ d.id := by
  cases e with
  | store call =>
    obtain ⟨⟨env, hstep⟩, -⟩ := heff
    rcases credential_origin hstep hd with ⟨d₀, hd₀, hid, -⟩ | ⟨c₀, -, -, -, -, hgone⟩
    · rw [← hid]
      rcases reservation_drawn hstep hc with ⟨c₀, hc₀, hsame⟩ | ⟨command, o, context, heq, hid, hnone⟩
      · rw [← hsame]
        exact hf.distinct c₀ hc₀ d₀ hd₀
      · -- the author of the credential has a receipt under another key
        intro heq'
        obtain ⟨j, command', o', context', hg, hid', -⟩ := hf.authored d₀ hd₀
        have hkey := ht.credentialId heq hg (hid'.trans (heq'.symm.trans hid.symm))
        obtain ⟨⟨row, hrow, -⟩, -⟩ := (hw.attests j _ hg).granted rfl
        have hrow : w.db.receipts.lookup command'.operation.idempotencyKey = some row := hrow
        rw [hkey] at hrow
        exact absurd_none_some hnone hrow
    · exact hgone c hc
  | garage call => exact hf.distinct c (heff.2 ▸ hc) d (heff.2 ▸ hd)
  | query q =>
    obtain rfl : w' = w := heff.2
    exact hf.distinct c hc d hd

include hw hf hmay heff in
theorem authored_kept (c : CredentialRow) (hc : c ∈ w'.db.credentials.rows) :
    ∃ j, Author (Function.update L i (L i ++ [⟨e, a⟩]) j) c := by
  rcases effect_credential hw hmay heff hc with ⟨c₀, hc₀, hsame⟩ |
    ⟨finish, command, credential, context, heq, -, -, hg, hid, hs, hp, hissued, -⟩
  · obtain ⟨j, hauthor⟩ := hf.authored c₀ hc₀
    exact ⟨j, (hauthor.mono (log_subset _ j)).congr hsame⟩
  · have hsub := List.subset_append_left (L i) [⟨e, a⟩]
    refine ⟨i, ?_⟩
    rw [Function.update_self]
    refine ⟨command, finish.operationId, context, hg.mono hsub, hid, hs, hp, hissued.mono hsub, ?_⟩
    intro hu
    refine hu finish (List.mem_append_right _ ?_)
    rw [heq]
    exact List.mem_cons_self

include hw hf heff in
theorem made_kept {j j' : Nat} {k : String} (h : Made (Function.update L i (L i ++ [⟨e, a⟩]) j) k)
    (h' : Made (Function.update L i (L i ++ [⟨e, a⟩]) j') k) : j = j' := by
  have hcases : ∀ {j : Nat}, Made (Function.update L i (L i ++ [⟨e, a⟩]) j) k →
      Made (L j) k ∨ j = i ∧ k ∉ w.garage.keyIds := by
    intro j h
    rcases log_grown (P := fun l => Made l k) h with ⟨rfl, h⟩ | h
    · rcases made_append h with h | ⟨request, key, heq, rfl⟩
      · exact .inl h
      · cases heq
        exact .inr ⟨rfl, Garage.documented_confined.freshKey heff.1⟩
    · exact .inl h
  have hissued : ∀ {j : Nat}, Made (L j) k → k ∈ w.garage.keyIds := by
    rintro j ⟨request, key, hmem, rfl⟩
    exact (hw.attests j _ hmem).created rfl
  rcases hcases h with h | ⟨rfl, hfresh⟩
  · rcases hcases h' with h' | ⟨-, hfresh⟩
    · exact hf.made h h'
    · exact absurd (hissued h) hfresh
  · rcases hcases h' with h' | ⟨rfl, -⟩
    · exact absurd (hissued h') hfresh
    · rfl

include hw hf ht hmay hcond heff in
theorem unlisted_kept {j : Nat} {k : String}
    (h : Lists (Function.update L i (L i ++ [⟨e, a⟩]) j) k) (c : CredentialRow)
    (hc : c ∈ w'.db.credentials.rows) : c.garageKeyId ≠ k := by
  rintro rfl
  have hold : ∀ {j : Nat}, Lists (L j) c.garageKeyId → False := by
    intro j h
    rcases effect_credential hw hmay heff hc with ⟨c₀, hc₀, hsame⟩ |
      ⟨finish, command, credential, context, -, -, -, hg, -, -, -, hissued, hheld⟩
    · exact hf.unlisted h c₀ hc₀ hsame.garageKeyId
    · -- the reservation of the one who completes is not spent
      obtain ⟨key, hkey, hk⟩ := hissued.created
      exact hheld (hf.spent h ⟨command, context, key, hg, hkey, hk⟩)
  rcases log_grown (P := fun l => Lists l c.garageKeyId) h with ⟨-, h⟩ | h
  · rcases lists_append hcond.prepare h with h | ⟨keys, heq, command, o, context, key, hg, hkey,
      hname, hk⟩
    · exact hold h
    · cases heq
      rw [heff.2] at hc
      obtain ⟨j, command', o', context', hg', hid, -, -, hissued, -⟩ := hf.authored c hc
      obtain ⟨made, hmade, hmadeId⟩ := hissued.created
      obtain ⟨row, hrow, -, hrowId⟩ := listed_reservation hw ht heff.1 hg hkey hname hmade
        (hmadeId.trans hk.symm)
      exact hf.distinct row hrow c hc (hrowId.trans hid)
  · exact hold h

include hw hf ht hmay hcond heff in
theorem spent_kept {j j' : Nat} {o : Uuid} {k : String}
    (h : Lists (Function.update L i (L i ++ [⟨e, a⟩]) j) k)
    (h' : Creator (Function.update L i (L i ++ [⟨e, a⟩]) j') o k) : w'.db.Spent o := by
  have hlists : Lists (L j) k ∨ ∃ keys : List AccessKeySummary,
      (⟨e, a⟩ : (e : Call) × e.Answer) = ⟨.garage .listKeys, Except.ok keys⟩ ∧
      ∃ (command : CreateCredentialCommand) (o : Uuid) (context : CreateCredentialContext)
        (key : AccessKeySummary), Granted (L i) (.createCredential command) o context ∧
        key ∈ keys ∧ key.name = (keyRequest command context).name ∧ key.id = k := by
    rcases log_grown (P := fun l => Lists l k) h with ⟨rfl, h⟩ | h
    · exact lists_append hcond.prepare h
    · exact .inl h
  have hcreator : Creator (L j') o k ∨ ∃ request key,
      (⟨e, a⟩ : (e : Call) × e.Answer) = ⟨.garage (.createKey request), Except.ok key⟩ ∧
      AccessKey.accessKeyId key = k := by
    rcases log_grown (P := fun l => Creator l o k) h' with ⟨rfl, h'⟩ | h'
    · exact creator_append hcond.prepare h'
    · exact .inl h'
  rcases hcreator with hcreator | ⟨request, made, heq, rfl⟩
  · obtain ⟨command', context', made, hg', hmade, hk'⟩ := hcreator
    have hgiven : Given (L j') o := ⟨_, _, hg'⟩
    rcases hlists with hlists | ⟨keys, heq, command, o', context, key, hg, hkey, hname, hk⟩
    · exact (hf.spent hlists ⟨command', context', made, hg', hmade, hk'⟩).effect hgiven ht heff
    · -- the one who lists holds the reservation of this credential id
      cases heq
      obtain ⟨row, hrow, hrowOp, hrowId⟩ := listed_reservation hw ht heff.1 hg hkey hname hmade
        (hk'.trans hk.symm)
      refine Database.Spent.effect ?_ hgiven ht heff
      intro c hc ho
      obtain rfl : c = row := Table.eq_of_key _ hc hrow
        ((hf.reserved hg' c hc ho).trans hrowId.symm)
      have hsame : o' = o := hrowOp.symm.trans ho
      obtain rfl : i = j' := hf.given ⟨_, _, hsame ▸ hg⟩ hgiven
      cases hmay with
      | touch htouch =>
        cases htouch with
        | listKeys _ hfirst => exact hfirst _ _ hmade
  · -- a new key was listed by nobody
    cases heq
    rcases hlists with ⟨command, o', context, keys, key, -, hmem, hkey, -, hk⟩ | ⟨keys, heq, -⟩
    · have hissued := (hw.attests j _ hmem).listed rfl key hkey
      rw [hk] at hissued
      exact absurd hissued (Garage.documented_confined.freshKey heff.1)
    · cases heq

include hw hf ht hmay hcond heff in
/-- **a timely call of a handler leaves everyone fenced** -/
theorem World.Fenced.act : w'.Fenced (Function.update L i (L i ++ [⟨e, a⟩])) where
  head := head_kept hf hcond
  given := given_kept hf ht
  reserved := reserved_kept hf ht heff
  distinct := distinct_kept hw hf ht hmay heff
  authored := authored_kept hw hf hmay heff
  made := made_kept hw hf heff
  unlisted := unlisted_kept hw hf ht hmay hcond heff
  spent := spent_kept hw hf ht hmay hcond heff

end

end Syouyu
