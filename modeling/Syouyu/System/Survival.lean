import Syouyu.System.Fence
import Syouyu.Store.Credentials

/-!
# The keys of credentials survive

Executions of one create may overlap: a lease runs out, a retry takes over, and the first one goes
on, deletes keys and makes new ones.  As long as each lists the keys while it holds the receipt, the
key that ends up on record is the one that stays.

* `Garage.Change.key_fate`   what a call can do to a key;
* `World.Sustained`          the invariant: a key that is held and not given up is there with the
                             permissions set so far, and so is the key of every credential;
* `TimelyStep`               a step of the handlers that is `Timely`;
* `System.Orderly`           all that such steps keep;
* `System.Orderly.survives`  **a credential that nobody was told to remove works**.
-/

set_option linter.unusedSectionVars false

namespace Syouyu
open Lib

/-! ## what a call can do to a key -/

namespace BucketKeyPermissions

theorem or_eq_of_within {p q : BucketKeyPermissions} (h : p.within q = true) : p.or q = q := by
  obtain ⟨r, w, o⟩ := p
  obtain ⟨r', w', o'⟩ := q
  simp only [within, Bool.and_eq_true, Bool.or_eq_true, Bool.not_eq_true'] at h
  simp only [or, mk.injEq]
  grind

end BucketKeyPermissions

namespace Garage
variable {g g' : Garage} {call : GarageCall}

theorem lookup_regrant (f : GarageKey → String → BucketKeyPermissions) (k : String) :
    (g.regrant f).keys.lookup k = (g.keys.lookup k).map fun key => { key with grants := f key } :=
  Table.lookup_map (f := fun key : GarageKey => { key with grants := f key }) rfl (fun _ => rfl) k

/-- **a key is deleted, or keeps its permissions but for those the call is about** -/
theorem Change.key_fate (h : g.Change call g') {k : String} {key : GarageKey}
    (hk : g.keys.lookup k = some key) : call = .deleteKey k ∨
      ∃ key', g'.keys.lookup k = some key' ∧ ∀ b, key'.grants b = key.grants b ∨
        call = .deleteBucket b ∨
        (∃ p, call = .allowBucketKey b k p ∧ key'.grants b = (key.grants b).or p) ∨
        ∃ p, call = .denyBucketKey b k p ∧ key'.grants b = (key.grants b).without p := by
  have hid : key.id = k := Table.lookup_key hk
  cases h with
  | same => exact .inr ⟨key, hk, fun _ => .inl rfl⟩
  | @keyAdded request id keys hi hfresh =>
    refine .inr ⟨key, ?_, fun _ => .inl rfl⟩
    refine (Table.lookup_insert hi k).trans ((if_neg fun hsame => ?_).trans hk)
    have hsame : id = k := hsame
    exact hfresh (hsame ▸ hid ▸ g.keys_issued key (Table.lookup_mem hk))
  | bucketAdded _ _ => exact .inr ⟨key, hk, fun _ => .inl rfl⟩
  | @keyDropped id =>
    by_cases hsame : k = id
    · exact .inl (hsame ▸ rfl)
    · exact .inr ⟨key, by rw [lookup_dropKey, if_neg hsame, hk], fun _ => .inl rfl⟩
  | @bucketDropped id =>
    refine .inr ⟨_, (lookup_regrant _ k).trans (congrArg _ hk), fun b => ?_⟩
    by_cases hb : b = id
    · exact .inr (.inl (hb ▸ rfl))
    · exact .inl (if_neg hb)
  | quotas => exact .inr ⟨key, hk, fun _ => .inl rfl⟩
  | @allowed b' k' p =>
    refine .inr ⟨_, (lookup_regrant _ k).trans (congrArg _ hk), fun b => ?_⟩
    by_cases hb : key.id = k' ∧ b = b'
    · obtain ⟨rfl, rfl⟩ := hb
      exact .inr (.inr (.inl ⟨p, hid ▸ rfl, if_pos ⟨rfl, rfl⟩⟩))
    · exact .inl (if_neg hb)
  | @denied b' k' p =>
    refine .inr ⟨_, (lookup_regrant _ k).trans (congrArg _ hk), fun b => ?_⟩
    by_cases hb : key.id = k' ∧ b = b'
    · obtain ⟨rfl, rfl⟩ := hb
      exact .inr (.inr (.inr ⟨p, hid ▸ rfl, if_pos ⟨rfl, rfl⟩⟩))
    · exact .inl (if_neg hb)

/-- an answer to `AllowBucketKey` says that the permissions are there -/
theorem Documented.allowed {b k : String} {p : BucketKeyPermissions} {bucket : Bucket}
    (h : g.Documented (.allowBucketKey b k p) (.ok bucket) g') {key : GarageKey}
    (hk : g.keys.lookup k = some key) :
    ∃ key', g'.keys.lookup k = some key' ∧ key'.grants b = (key.grants b).or p := by
  obtain ⟨d, h⟩ := h.answered
  obtain ⟨-, -, rfl⟩ := serveGrant_eq_ok h
  have hid : key.id = k := Table.lookup_key hk
  exact ⟨_, (lookup_regrant _ k).trans (congrArg _ hk), if_pos ⟨hid, rfl⟩⟩

/-- a new key has no permissions -/
theorem Documented.created {request : CreateKeyRequest} {made : AccessKey}
    (h : g.Documented (.createKey request) (.ok made) g') :
    ∃ key, g'.keys.lookup made.accessKeyId = some key ∧ ∀ b, key.grants b = .none := by
  obtain ⟨d, h⟩ := h.answered
  obtain ⟨-, rfl, keys, hi, rfl⟩ := newKey_eq_ok h
  exact ⟨_, Table.lookup_inserted hi, fun _ => rfl⟩

end Garage

/-! ## what ends a credential -/

/-- the operation removes a credential of the service, or the service -/
def PrepareCall.Removes (s credentialId : Uuid) : PrepareCall → Prop
  | .delete command => command.operation.serviceInstanceId = s
  | .revokeCredential command => command.credentialId = credentialId
  | _ => False

instance (s credentialId : Uuid) (call : PrepareCall) : Decidable (call.Removes s credentialId) :=
  match call with
  | .delete command => inferInstanceAs (Decidable (command.operation.serviceInstanceId = s))
  | .revokeCredential command => inferInstanceAs (Decidable (command.credentialId = credentialId))
  | .reconcile _ => isFalse fun h => h
  | .createCredential _ => isFalse fun h => h

/-- nobody was told to remove the credential -/
def Unthreatened (L : Nat → CallLog) (s credentialId : Uuid) : Prop :=
  ∀ (j : Nat) (call : PrepareCall) (o : Uuid) (context : call.Context),
    Granted (L j) call o context → ¬ call.Removes s credentialId

/-- the ids in the context of a delete or a revoke are those of what it removes -/
structure Database.Targets (db : Database) (x : (e : Call) × e.Answer) : Prop where
  keys : ∀ {command : DeleteCommand} {o : Uuid} {context : DeleteContext},
    x = ⟨.store (.prepare (.delete command)), Except.ok (Prepare.execute o context)⟩ →
    ∀ k ∈ context.garageKeyIds, ∃ c ∈ db.credentials.rows, c.garageKeyId = k ∧
      c.serviceInstanceId = command.operation.serviceInstanceId
  bucket : ∀ {command : DeleteCommand} {o : Uuid} {context : DeleteContext},
    x = ⟨.store (.prepare (.delete command)), Except.ok (Prepare.execute o context)⟩ →
    ∀ b, context.bucket.physicalBucketId = some b →
    db.Recorded command.operation.serviceInstanceId b
  key : ∀ {command : RevokeCredentialCommand} {o : Uuid} {context : RevokeCredentialContext},
    x = ⟨.store (.prepare (.revokeCredential command)), Except.ok (Prepare.execute o context)⟩ →
    ∃ c ∈ db.credentials.rows, c.garageKeyId = context.garageKeyId ∧ c.id = command.credentialId

/-- the key is there with no more than the permissions asked for, and with all of them once they
were answered for -/
def World.Pending (w : World) (log : CallLog) (p : BucketKeyPermissions) (b k : String) : Prop :=
  ∃ key, w.garage.keys.lookup k = some key ∧ (key.grants b).within p = true ∧
    ∀ bucket, Answered log (.allowBucketKey b k p) bucket → key.grants b = p

/-- the execution of the log has made the credential, and its key is as it was left -/
def World.Upholds (w : World) (log : CallLog) (c : CredentialRow) : Prop :=
  ∃ (command : CreateCredentialCommand) (o : Uuid) (context : CreateCredentialContext) (b : String)
    (key : GarageKey), Granted log (.createCredential command) o context ∧
    context.credentialId = c.id ∧ command.operation.serviceInstanceId = c.serviceInstanceId ∧
    command.permissions.toValue = c.permissions ∧ context.bucket.physicalBucketId = some b ∧
    Issued log command context c.garageKeyId ∧ ¬ Unfinished log ∧
    w.garage.keys.lookup c.garageKeyId = some key ∧ key.grants b = .ofDomain command.permissions

/-- keys are there as the executions left them -/
structure World.Sustained (start : Garage) (w : World) (L : Nat → CallLog) : Prop where
  new : ∀ {i : Nat} {k : String}, Made (L i) k → k ∉ start.keyIds
  targets : ∀ i, ∀ x ∈ L i, w.db.Targets x
  pending : ∀ {i : Nat} {command : CreateCredentialCommand} {o : Uuid}
    {context : CreateCredentialContext} {b k : String},
    Granted (L i) (.createCredential command) o context →
    context.bucket.physicalBucketId = some b → Creator (L i) o k → Holding (L i) k →
    ¬ w.db.Spent o →
    Unthreatened L command.operation.serviceInstanceId context.credentialId →
    w.Pending (L i) (.ofDomain command.permissions) b k
  upheld : ∀ c ∈ w.db.credentials.rows, Unthreatened L c.serviceInstanceId c.id →
    ∃ i, w.Upholds (L i) c

section
variable {store : PgStore} {start : Garage} {w w' : World} {L : Nat → CallLog} {i : Nat} {e : Call}
  {a : e.Answer} {r : Request}

theorem Holding.made {log : CallLog} {k : String} (h : Holding log k) : Made log k := by
  obtain ⟨before, request, key, after, rfl, hk, -⟩ := h
  exact ⟨request, key, List.mem_append_right _ List.mem_cons_self, hk⟩

theorem Unthreatened.of_grown {x : (e : Call) × e.Answer} {s id : Uuid}
    (h : Unthreatened (Function.update L i (L i ++ [x])) s id) : Unthreatened L s id :=
  fun j call o context hg => h j call o context (hg.mono (log_subset x j))

/-! ## what others can do -/

/-- a bucket that is deleted belongs to the service that is deleted -/
theorem deleteBucket_removes (hs : w.Sustained start L) {b : String}
    (hmay : May r (L i) (.garage (.deleteBucket b))) {s id : Uuid} (hb : w.db.Recorded s b) (hsafe : Unthreatened L s id) : False := by
  cases hmay with
  | touch ht =>
    cases ht with
    | deleteBucket hg hpid =>
      obtain ⟨row, hrow, hphys⟩ := (hs.targets i _ hg).bucket rfl b hpid
      have hservice := hb.unique (Table.lookup_mem hrow) hphys
      exact hsafe _ _ _ _ hg ((Table.lookup_key hrow).symm.trans hservice)

/-- **others leave a key alone** that they have not listed, unless they remove its credential -/
theorem others_keep (hw : w.Attested store start L) (hf : w.Fenced L) (hs : w.Sustained start L)
    (hmay : May r (L i) e) (heff : World.Effect store Garage.Documented w e a w') {j : Nat}
    (hj : j ≠ i) {command : CreateCredentialCommand} {o : Uuid} {context : CreateCredentialContext}
    {b k : String} (hg : Granted (L j) (.createCredential command) o context)
    (hb : context.bucket.physicalBucketId = some b) (hmade : Made (L j) k)
    (hlist : ¬ Lists (L i) k)
    (hsafe : Unthreatened L command.operation.serviceInstanceId context.credentialId)
    {key : GarageKey} (hk : w.garage.keys.lookup k = some key) :
    ∃ key', w'.garage.keys.lookup k = some key' ∧ key'.grants b = key.grants b := by
  -- the author of a credential with this key is the one who made it
  have hauthor : ∀ c ∈ w.db.credentials.rows, c.garageKeyId = k →
      command.operation.serviceInstanceId = c.serviceInstanceId ∧
      context.credentialId = c.id := by
    intro c hc hck
    obtain ⟨j', hauthor⟩ := hf.authored c hc
    obtain ⟨o', hcreator⟩ := hauthor.creator
    obtain rfl := hf.made hmade (hck ▸ hcreator.made)
    obtain ⟨command', o', context', hg', hid, hservice, -⟩ := hauthor
    obtain ⟨rfl, -, rfl⟩ := hf.grant_unique hg hg'
    exact ⟨hservice, hid⟩
  have hown : ¬ Made (L i) k := fun hi => hj (hf.made hmade hi)
  cases e with
  | store call => exact ⟨key, heff.2 ▸ hk, rfl⟩
  | query q =>
    obtain rfl : w' = w := heff.2
    exact ⟨key, hk, rfl⟩
  | garage call =>
    rcases heff.1.change.key_fate hk with rfl | ⟨key', hk', hgrants⟩
    · exfalso
      cases hmay with
      | touch ht =>
        generalize hcall : GarageCall.deleteKey k = call at ht
        cases ht with
        | deleteListed hg' hkeys hmem hname =>
          exact hlist ⟨_, _, _, _, _, hg', hkeys, hmem, hname, (GarageCall.deleteKey.inj hcall).symm⟩
        | deleteOwn hg' hkey =>
          exact hown ⟨_, _, hkey, (GarageCall.deleteKey.inj hcall).symm⟩
        | deleteOfService hg' hmem =>
          obtain ⟨c, hc, hck, hservice⟩ := (hs.targets i _ hg').keys rfl _ hmem
          obtain ⟨hs', -⟩ := hauthor c hc (hck.trans (GarageCall.deleteKey.inj hcall).symm)
          exact hsafe _ _ _ _ hg' (hservice.symm.trans hs'.symm)
        | deleteRevoked hg' _ =>
          obtain ⟨c, hc, hck, hid⟩ := (hs.targets i _ hg').key rfl
          obtain ⟨-, hid'⟩ := hauthor c hc (hck.trans (GarageCall.deleteKey.inj hcall).symm)
          exact hsafe _ _ _ _ hg' (hid.symm.trans hid'.symm)
        | _ => cases hcall
    · refine ⟨key', hk', ?_⟩
      rcases hgrants b with hsame | rfl | ⟨p, rfl, -⟩ | ⟨p, rfl, -⟩
      · exact hsame
      · exact (deleteBucket_removes hs hmay ((hw.ties j _ hg).granted rfl b hb) hsafe).elim
      · cases hmay with
        | touch ht =>
          cases ht with
          | allow _ _ hkey => exact absurd ⟨_, _, hkey, rfl⟩ hown
      · cases hmay with
        | touch ht =>
          cases ht with
          | deny _ _ hkey => exact absurd ⟨_, _, hkey, rfl⟩ hown

/-! ## each part is kept -/

variable (hw : w.Attested store start L) (hf : w.Fenced L) (hs : w.Sustained start L)
  (ht : Timely w L i ⟨e, a⟩) (hmay : May r (L i) e) (hcond : Conduct (L i) e)
  (heff : World.Effect store Garage.Documented w e a w')

include hw hmay heff in
/-- what a handler's call leaves on record -/
theorem effect_records : (∀ c ∈ w.db.credentials.rows, ∃ c' ∈ w'.db.credentials.rows, c.Same c') ∧
    ∀ s b, w.db.Recorded s b → w'.db.Recorded s b := by
  cases e with
  | store call =>
    obtain ⟨⟨env, hstep⟩, -⟩ := heff
    refine ⟨fun c hc => ?_, fun s b =>
      recorded_kept hw.truthful (hw.attests i) (hw.ties i) hmay hstep⟩
    rcases credential_step hstep hc with hc | ⟨c', hc', -, _, _, _, -, -, rfl⟩
    · exact ⟨c, hc, .refl c⟩
    · exact ⟨_, hc', rfl, rfl, rfl, rfl⟩
  | garage call =>
    obtain ⟨-, hdb⟩ := heff
    rw [hdb]
    exact ⟨fun c hc => ⟨c, hc, .refl c⟩, fun _ _ h => h⟩
  | query q =>
    obtain rfl : w' = w := heff.2
    exact ⟨fun c hc => ⟨c, hc, .refl c⟩, fun _ _ h => h⟩

include heff in
/-- a context names what the call has found -/
theorem targets_of_answer : w'.db.Targets ⟨e, a⟩ where
  keys := by
    rintro command o context ⟨⟩ k hk
    obtain ⟨⟨env, hstep⟩, -⟩ := heff
    have hexec : (PrepareCall.delete command).exec store env w.db = .ok (.execute o context, w'.db) :=
      step_ok hstep
    obtain ⟨_, _, -, -, -, -, -, -, -, -, hkeys⟩ := prepare_observed hexec
    rw [hkeys] at hk
    obtain ⟨c, hc, hservice, -, hck⟩ := mem_activeGarageKeys.mp hk
    exact ⟨c, hc, hck, hservice⟩
  bucket := by
    rintro command o context ⟨⟩ b hb
    obtain ⟨⟨env, hstep⟩, -⟩ := heff
    have hexec : (PrepareCall.delete command).exec store env w.db = .ok (.execute o context, w'.db) :=
      step_ok hstep
    obtain ⟨_, row, -, -, -, -, -, hrow, -, hrecord, -⟩ := prepare_observed hexec
    exact ⟨row, hrow, (congrArg BucketRecord.physicalBucketId hrecord).symm.trans hb⟩
  key := by
    rintro command o context ⟨⟩
    obtain ⟨⟨env, hstep⟩, -⟩ := heff
    have hexec : (PrepareCall.revokeCredential command).exec store env w.db =
      .ok (.execute o context, w'.db) := step_ok hstep
    obtain ⟨-, c, hl, -, hcontext⟩ := prepare_observed hexec
    rw [hcontext]
    exact ⟨c, Table.lookup_mem hl, rfl, Table.lookup_key hl⟩

include hw hs hmay heff in
theorem targets_kept (j : Nat) (x : (e : Call) × e.Answer)
    (hx : x ∈ Function.update L i (L i ++ [⟨e, a⟩]) j) : w'.db.Targets x := by
  obtain ⟨hcredentials, hrecorded⟩ := effect_records hw hmay heff
  have hold : ∀ j, x ∈ L j → w'.db.Targets x := by
    intro j hx
    have hx := hs.targets j x hx
    refine ⟨fun heq k hk => ?_, fun heq b hb => hrecorded _ _ (hx.bucket heq b hb), fun heq => ?_⟩
    · obtain ⟨c, hc, hck, hservice⟩ := hx.keys heq k hk
      obtain ⟨c', hc', hsame⟩ := hcredentials c hc
      exact ⟨c', hc', hsame.garageKeyId.symm.trans hck, hsame.service.symm.trans hservice⟩
    · obtain ⟨c, hc, hck, hid⟩ := hx.key heq
      obtain ⟨c', hc', hsame⟩ := hcredentials c hc
      exact ⟨c', hc', hsame.garageKeyId.symm.trans hck, hsame.id.symm.trans hid⟩
  rcases log_grown (P := fun l => x ∈ l) hx with ⟨-, hx⟩ | hx
  · rcases List.mem_append.mp hx with hx | hx
    · exact hold i hx
    · rw [List.mem_singleton.mp hx]
      exact targets_of_answer heff
  · exact hold j hx

include hw hf hs hmay hcond heff in
/-- **an execution's own call** leaves its key with the permissions set so far -/
theorem pending_own {command : CreateCredentialCommand} {o : Uuid}
    {context : CreateCredentialContext} {b k : String}
    (hg : Granted (L i) (.createCredential command) o context)
    (hb : context.bucket.physicalBucketId = some b) (hdelete : ∀ id, e ≠ .garage (.deleteKey id))
    (hsafe : Unthreatened L command.operation.serviceInstanceId context.credentialId)
    (h : w.Pending (L i) (.ofDomain command.permissions) b k) :
    w'.Pending (L i ++ [⟨e, a⟩]) (.ofDomain command.permissions) b k := by
  obtain ⟨key, hk, hin, hall⟩ := h
  -- an answer to another call
  have hother : (∀ p, e ≠ .garage (.allowBucketKey b k p)) → ∀ bucket,
      Answered (L i ++ [⟨e, a⟩]) (.allowBucketKey b k (.ofDomain command.permissions)) bucket →
      key.grants b = .ofDomain command.permissions := by
    intro hne bucket hmem
    rcases List.mem_append.mp hmem with hmem | hmem
    · exact hall bucket hmem
    · exact absurd (congrArg Sigma.fst (List.mem_singleton.mp hmem).symm) (hne _)
  cases e with
  | store call => exact ⟨key, heff.2 ▸ hk, hin, hother fun _ h => by cases h⟩
  | query q =>
    obtain rfl : w' = w := heff.2
    exact ⟨key, hk, hin, hother fun _ h => by cases h⟩
  | garage call =>
    rcases heff.1.change.key_fate hk with rfl | ⟨key', hk', hgrants⟩
    · exact absurd rfl (hdelete k)
    by_cases hallow : ∃ p, call = .allowBucketKey b k p
    · obtain ⟨p, rfl⟩ := hallow
      obtain rfl : p = .ofDomain command.permissions := by
        cases hmay with
        | touch htouch =>
          cases htouch with
          | allow hg' _ _ =>
            obtain ⟨rfl, -, -⟩ := hf.grant_unique hg hg'
            rfl
      -- whether or not it took effect, nothing else is allowed
      have hcases : key'.grants b = key.grants b ∨
          key'.grants b = (key.grants b).or (.ofDomain command.permissions) := by
        rcases hgrants b with hsame | heq | ⟨p, heq, hor⟩ | ⟨p, heq, -⟩
        · exact .inl hsame
        · cases heq
        · cases heq
          exact .inr hor
        · cases heq
      refine ⟨key', hk', ?_, fun bucket hmem => ?_⟩
      · rcases hcases with hsame | hor
        · rw [hsame]
          exact hin
        · rw [hor]
          exact BucketKeyPermissions.or_within hin
      · rcases List.mem_append.mp hmem with hmem | hmem
        · have hfull := hall bucket hmem
          rcases hcases with hsame | hor
          · exact hsame.trans hfull
          · rw [hor]
            exact BucketKeyPermissions.or_eq_of_within hin
        · cases List.mem_singleton.mp hmem
          obtain ⟨key'', hk'', hor⟩ := Garage.Documented.allowed heff.1 hk
          obtain rfl := Option.some.inj (hk''.symm.trans hk')
          rw [hor]
          exact BucketKeyPermissions.or_eq_of_within hin
    · have hne : ∀ p, Call.garage call ≠ .garage (.allowBucketKey b k p) :=
        fun p heq => hallow ⟨p, Call.garage.inj heq⟩
      rcases hgrants b with hsame | rfl | ⟨p, rfl, -⟩ | ⟨p, rfl, hwithout⟩
      · exact ⟨key', hk', hsame ▸ hin, fun bucket hmem => hsame.trans (hother hne bucket hmem)⟩
      · exact (deleteBucket_removes hs hmay ((hw.ties i _ hg).granted rfl b hb) hsafe).elim
      · exact absurd rfl (hne p)
      · -- the key is denied everything before it is allowed anything
        refine ⟨key', hk', ?_, fun bucket hmem => ?_⟩
        · rw [hwithout]
          exact BucketKeyPermissions.within_trans (by simp) hin
        · rcases List.mem_append.mp hmem with hmem | hmem
          · exact absurd hmem (hcond.early rfl _ _ _ _)
          · cases List.mem_singleton.mp hmem

include hw hf hs ht hmay hcond heff in
theorem pending_kept {j : Nat} {command : CreateCredentialCommand} {o : Uuid}
    {context : CreateCredentialContext} {b k : String}
    (hg : Granted (Function.update L i (L i ++ [⟨e, a⟩]) j) (.createCredential command) o context)
    (hb : context.bucket.physicalBucketId = some b)
    (hcreator : Creator (Function.update L i (L i ++ [⟨e, a⟩]) j) o k)
    (hholding : Holding (Function.update L i (L i ++ [⟨e, a⟩]) j) k) (hheld : ¬ w'.db.Spent o)
    (hsafe : Unthreatened (Function.update L i (L i ++ [⟨e, a⟩]))
      command.operation.serviceInstanceId context.credentialId) :
    w'.Pending (Function.update L i (L i ++ [⟨e, a⟩]) j) (.ofDomain command.permissions) b k := by
  have hsafe₀ := hsafe.of_grown
  have hheld₀ : Given (L j) o → ¬ w.db.Spent o :=
    fun hgiven hspent => hheld (hspent.effect hgiven ht heff)
  by_cases hj : j = i
  · subst hj
    rw [Function.update_self] at hg hcreator hholding ⊢
    rcases holding_append.mp hholding with ⟨hholding₀, hdelete⟩ | ⟨request, made, heq, rfl⟩
    · obtain ⟨request, made, hmem, hmade⟩ := hholding₀.made
      have hg₀ := granted_append hcond.prepare hg hmem
      rcases creator_append hcond.prepare hcreator with hcreator₀ | ⟨request', made', heq, rfl⟩
      · exact pending_own hw hf hs hmay hcond heff hg₀ hb hdelete hsafe₀
          (hs.pending hg₀ hb hcreator₀ hholding₀ (hheld₀ ⟨_, _, hg₀⟩) hsafe₀)
      · cases heq
        have hissued := (hw.attests j _ hmem).created rfl
        rw [hmade] at hissued
        exact absurd hissued (Garage.documented_confined.freshKey heff.1)
    · cases heq
      obtain ⟨key, hk, hnone⟩ := heff.1.created
      refine ⟨key, hk, by rw [hnone]; rfl, fun bucket hmem => ?_⟩
      rcases List.mem_append.mp hmem with hmem | hmem
      · exact absurd hmem (hcond.early rfl _ _ _ _)
      · cases List.mem_singleton.mp hmem
  · rw [Function.update_of_ne hj] at hg hcreator hholding ⊢
    have hheld₁ := hheld₀ ⟨_, _, hg⟩
    obtain ⟨key, hk, hin, hall⟩ := hs.pending hg hb hcreator hholding hheld₁ hsafe₀
    have hlist : ¬ Lists (L i) k := fun hlist => hheld₁ (hf.spent hlist hcreator)
    obtain ⟨key', hk', hsame⟩ :=
      others_keep hw hf hs hmay heff hj hg hb hcreator.made hlist hsafe₀ hk
    exact ⟨key', hk', hsame ▸ hin, fun bucket hmem => hsame.trans (hall bucket hmem)⟩

include hw hs heff in
theorem new_kept {j : Nat} {k : String} (h : Made (Function.update L i (L i ++ [⟨e, a⟩]) j) k) :
    k ∉ start.keyIds := by
  rcases log_grown (P := fun l => Made l k) h with ⟨-, h⟩ | h
  · rcases made_append h with h | ⟨request, made, heq, rfl⟩
    · exact hs.new h
    · cases heq
      exact fun hold => Garage.documented_confined.freshKey heff.1 (hw.isolated.keyIds hold)
  · exact hs.new h

include hs hcond in
/-- **a credential starts with its permissions** -/
theorem created_upheld {c : CredentialRow} (hc : w.Creates (L i) ⟨e, a⟩ c)
    (hsafe : Unthreatened L c.serviceInstanceId c.id) (hg : w'.garage = w.garage) :
    w'.Upholds (L i ++ [⟨e, a⟩]) c := by
  obtain ⟨finish, command, credential, context, heq, hcomp, hck, hgrant, hid, hservice, hperm,
    hissued, hheld⟩ := hc
  obtain ⟨completion, o, response, event⟩ := finish
  obtain rfl : completion = .createCredential command credential := hcomp
  have hsub := List.subset_append_left (L i) [⟨e, a⟩]
  have hholding : Holding (L i) c.garageKeyId :=
    hck ▸ hcond.finish command credential o response event (congrArg Sigma.fst heq)
  obtain ⟨⟨made, hmade, hmadeId⟩, b, hb, -, hset⟩ := id hissued
  obtain ⟨key, hk, hin, hall⟩ := hs.pending hgrant hb ⟨command, context, made, hgrant, hmade, hmadeId⟩
    hholding hheld (hservice ▸ hid ▸ hsafe)
  refine ⟨command, o, context, b, key, hgrant.mono hsub, hid, hservice, hperm, hb,
    hissued.mono hsub, fun hu => ?_, hg ▸ hk, ?_⟩
  · refine hu ⟨.createCredential command credential, o, response, event⟩
      (List.mem_append_right _ ?_)
    rw [heq]
    exact List.mem_cons_self
  · rcases hset with hempty | ⟨bucket, hallowed⟩
    · have hnone := BucketKeyPermissions.eq_none_of_isEmpty hempty
      rw [hnone] at hin ⊢
      exact BucketKeyPermissions.within_none hin
    · exact hall bucket hallowed

include hw hf hs hmay hcond heff in
theorem upheld_kept (c : CredentialRow) (hc : c ∈ w'.db.credentials.rows)
    (hsafe : Unthreatened (Function.update L i (L i ++ [⟨e, a⟩])) c.serviceInstanceId c.id) :
    ∃ j, w'.Upholds (Function.update L i (L i ++ [⟨e, a⟩]) j) c := by
  have hsafe₀ : Unthreatened L c.serviceInstanceId c.id := hsafe.of_grown
  rcases effect_credential hw hmay heff hc with ⟨c₀, hc₀, hsame⟩ | hcreates
  · obtain ⟨j, command, o, context, b, key, hg, hid, hservice, hperm, hb, hissued, hfinished, hk,
      hgrants⟩ := hs.upheld c₀ hc₀ (hsame.service ▸ hsame.id ▸ hsafe₀)
    -- the execution that made it is over
    have hj : j ≠ i := by
      rintro rfl
      exact hfinished hcond.unfinished
    obtain ⟨made, hmade, hmadeId⟩ := hissued.created
    obtain ⟨key', hk', hsameGrants⟩ := others_keep hw hf hs hmay heff hj hg hb
      ⟨_, made, hmade, hmadeId⟩ (fun hlist => hf.unlisted hlist c₀ hc₀ rfl)
      (by rw [hservice, hid, hsame.service, hsame.id]; exact hsafe₀) hk
    refine ⟨j, ?_⟩
    rw [Function.update_of_ne hj]
    exact ⟨command, o, context, b, key', hg, hid.trans hsame.id, hservice.trans hsame.service,
      hperm.trans hsame.permissions, hb, hsame.garageKeyId ▸ hissued, hfinished,
      hsame.garageKeyId ▸ hk', hsameGrants.trans hgrants⟩
  · refine ⟨i, ?_⟩
    rw [Function.update_self]
    obtain ⟨finish, -, -, -, heq, -⟩ := id hcreates
    refine created_upheld hs hcond hcreates hsafe₀ ?_
    cases heq
    exact heff.2

include hw hf hs ht hmay hcond heff in
/-- **a timely call of a handler leaves the keys as the executions left them** -/
theorem World.Sustained.act : w'.Sustained start (Function.update L i (L i ++ [⟨e, a⟩])) where
  new := new_kept hw hs heff
  targets := targets_kept hw hs hmay heff
  pending := pending_kept hw hf hs ht hmay hcond heff
  upheld := upheld_kept hw hf hs hmay hcond heff

end

/-! ## runs -/

/-- a step of the handlers that is timely -/
def TimelyStep (store : PgStore) (state : AppState) (s : System) (ev : SystemEvent) (s' : System) :
    Prop :=
  SystemStep store Garage.Documented state s ev s' ∧
    ∀ i e a, ev = .act i e a → Timely s.world s.log i ⟨e, a⟩

section
variable {store : PgStore} {state : AppState} {start : Garage} {s s' : System} {ev : SystemEvent}

/-- all that is known of a system -/
structure System.Orderly (store : PgStore) (start : Garage) (s : System) : Prop where
  sound : s.Sound May (fun w => w.Truthful store ∧ w.Isolated start)
    (fun w x => w.Attests x ∧ w.Ties start x)
  conduct : s.Obeying (fun _ => Conduct) (fun _ _ _ => True)
  fenced : s.world.Fenced s.log
  sustained : s.world.Sustained start s.log

theorem orderly_start : (System.start start).Orderly store start where
  sound := ⟨⟨start_truthful start, List.Subset.refl _,
    fun k hk hnew => absurd (start.keys_issued k hk) hnew⟩, fun _ ht => by cases ht⟩
  conduct := fun _ ht => by cases ht
  fenced :=
    { head := fun hx => by cases hx
      given := by
        rintro i j o ⟨call, context, hmem⟩
        cases hmem
      reserved := fun hg => by cases hg
      distinct := fun c hc => by cases hc
      authored := fun c hc => by cases hc
      made := by
        rintro i j k ⟨request, key, hmem, -⟩
        cases hmem
      unlisted := by
        intro i k _ c hc
        cases hc
      spent := by
        rintro i j o k ⟨command, o', context, keys, key, hmem, -⟩
        cases hmem }
  sustained :=
    { new := by
        rintro i k ⟨request, key, hmem, -⟩
        cases hmem
      targets := fun i x hx => by cases hx
      pending := fun hg => by cases hg
      upheld := fun c hc => by cases hc }

/-- what the next call of a handler may be -/
theorem System.Orderly.asks (hs : s.Orderly store start) {i : Nat} {t : HandlerThread} {e : Call}
    {next : e.Answer → HandlerM ApiError Response} (hi : s.threads[i]? = some t)
    (hrest : t.rest = some (.ask e next)) : May t.request (s.log i) e ∧ Conduct (s.log i) e := by
  have ht := List.mem_of_getElem? hi
  rw [Pool.log_of_thread hi]
  exact ⟨((hs.sound.threads t ht).obeys _ hrest).1, (hs.conduct t ht _ hrest).1⟩

/-- **a timely step keeps it** -/
theorem System.Orderly.step (hs : s.Orderly store start) (h : TimelyStep store state s ev s') :
    s'.Orderly store start := by
  have hsound := h.1.sound hs.sound (handle_obeys state) fun _ _ e a _ _ hw hlog hmay heff =>
    isolation_keeps Garage.documented_confined e a hw hlog hmay heff
  have hconduct := h.1.obeying (fun r => handle_conduct state r) hs.conduct
  rcases h.1.logs with ⟨-, hworld, hlog⟩ | ⟨i, t, e, next, a, rfl, hi, hrest, heff, hlog⟩
  · exact ⟨hsound, hconduct, hworld ▸ hlog ▸ hs.fenced, hworld ▸ hlog ▸ hs.sustained⟩
  · obtain ⟨hmay, hcond⟩ := hs.asks hi hrest
    have hw : s.world.Attested store start s.log :=
      ⟨hs.sound.inv.1, hs.sound.inv.2, fun i x hx => (hs.sound.log i x hx).1,
        fun i x hx => (hs.sound.log i x hx).2⟩
    have htimely := h.2 i e a rfl
    refine ⟨hsound, hconduct, ?_, ?_⟩
    · rw [hlog]
      exact hs.fenced.act hw htimely hmay hcond heff
    · rw [hlog]
      exact hs.sustained.act hw hs.fenced htimely hmay hcond heff

/-- **a credential that nobody was told to remove works** -/
theorem System.Orderly.survives (hs : s.Orderly store start) {c : CredentialRow}
    (hc : c ∈ s.world.db.credentials.rows) (hsafe : Unthreatened s.log c.serviceInstanceId c.id) :
    c.status = .active ∧ ∃ key b p, s.world.garage.keys.lookup c.garageKeyId = some key ∧
      s.world.db.Recorded c.serviceInstanceId b ∧
      BucketPermissions.fromValue c.permissions = some p ∧
      ∀ b', key.grants b' = if b' = b then .ofDomain p else .none := by
  obtain ⟨i, command, o, context, b, key, hg, hid, hservice, hperm, hb, hissued, -, hk, hgrants⟩ :=
    hs.sustained.upheld c hc hsafe
  have hrec : s.world.db.Recorded c.serviceInstanceId b :=
    hservice ▸ (hs.sound.log i _ hg).2.granted rfl b hb
  have hkey : key.id = c.garageKeyId := Table.lookup_key hk
  refine ⟨?_, key, b, command.permissions, hk, hrec, ?_, fun b' => ?_⟩
  · cases hstatus : c.status with
    | active => rfl
    | revoked =>
      have hgone := (hs.sound.inv.1.revoked c hc hstatus).2
      exact absurd_none_some hgone hk
  · rw [← hperm]
    exact BucketPermissions.fromValue_toValue _
  · split
    · rename_i hb'
      rw [hb']
      exact hgrants
    · rename_i hb'
      -- a permission elsewhere would be on the bucket of another service
      by_contra hne
      obtain ⟨made, hmade, hmadeId⟩ := hissued.created
      have hnew := hs.sustained.new ⟨_, made, hmade, hmadeId⟩
      obtain ⟨svc, credentialId, hname, honly⟩ :=
        hs.sound.inv.2.keys key (Table.lookup_mem hk) (hkey ▸ hnew)
      have hmadeName := ((hs.sound.log i _ hmade).2.created rfl).2 key (Table.lookup_mem hk)
        (hkey.trans hmadeId.symm)
      obtain ⟨rfl, -⟩ := deterministicName_inj (hname.symm.trans hmadeName)
      obtain ⟨row, hrow, hphys⟩ := hrec
      obtain ⟨row', hrow', hphys'⟩ := (honly b' hne).2
      rw [hservice] at hrow'
      obtain rfl := Option.some.inj (hrow.symm.trans hrow')
      exact hb' (Option.some.inj (hphys'.symm.trans hphys))

end

end Syouyu
