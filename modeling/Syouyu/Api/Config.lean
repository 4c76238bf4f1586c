import Syouyu.Api.Handlers

/-!
# The configured region and the region of a spec

The region is validated twice: when the process reads `GARAGE_REGION`, and when a spec names it.
The first check is one negative test over bytes, the second a check of the characters followed by
checks of the first, the last and every byte.

* `Config.validateRegion`      the check of the configuration;
* `validateRegionIndexed`      the check of a spec with its two indexings written out;
* `region_validators_agree`    the two accept the same texts, and no indexing fails.
-/

set_option linter.unusedSectionVars false

namespace Syouyu
open Lib

/-! ## the two checks -/

/-- `config::validate_region` -/
def Config.validateRegion (value : String) : Except String Unit :=
  if value.isEmpty || decide (63 < len value) || value.toList.head? == some '-' ||
      value.toList.getLast? == some '-' ||
      (asBytes value).any (fun b => !isAsciiLowercase b && !isAsciiDigit b && b != 45) then
    .error "GARAGE_REGION must be a lowercase DNS label of at most 63 characters"
  else .ok ()

/-- the error of the second half of the domain's check -/
def regionRefused : Except ValidationError Unit :=
  .error (.invalidField "region" "region must use lowercase letters, digits, and internal hyphens")

/-- the domain's `validate_region` as it indexes the bytes; `none` is the panic of an index out
of bounds -/
def validateRegionIndexed (value : String) : Option (Except ValidationError Unit) :=
  match validateIdentifier "region" value maxRegionLength with
  | .error error => some (.error error)
  | .ok () => do
    let bytes := asBytes value
    let first ← bytes[0]?
    if !isAsciiAlphanumeric first then
      return regionRefused
    -- the second index is only evaluated when the first byte passed
    let last ← bytes[bytes.length - 1]?
    if !isAsciiAlphanumeric last then
      return regionRefused
    if !bytes.all (fun b => isAsciiLowercase b || isAsciiDigit b || b == 45) then
      return regionRefused
    return .ok ()

/-! ## labels -/

/-- a lower-case letter, a digit or a hyphen -/
def isLabelByte (b : UInt8) : Bool := isAsciiLowercase b || isAsciiDigit b || b == 45

theorem isLabelByte_lt {b : UInt8} (h : isLabelByte b = true) : b.toNat < 128 := by
  simp only [isLabelByte, isAsciiLowercase, isAsciiDigit, Bool.or_eq_true, Bool.and_eq_true,
    decide_eq_true_eq, UInt8.le_iff_toNat_le, beq_iff_eq] at h
  rcases h with (⟨-, h⟩ | ⟨-, h⟩) | rfl
  · exact lt_of_le_of_lt h (by decide)
  · exact lt_of_le_of_lt h (by decide)
  · decide

/-- of the bytes of a label only the hyphen is not alphanumeric -/
theorem isLabelByte_alphanumeric {b : UInt8} (h : isLabelByte b = true) :
    isAsciiAlphanumeric b = true ↔ b ≠ 45 := by
  constructor
  · rintro halnum rfl
    exact absurd halnum (by decide)
  · intro hne
    simp only [isLabelByte, Bool.or_eq_true, beq_iff_eq, hne, or_false] at h
    simp only [isAsciiAlphanumeric, Bool.or_eq_true]
    tauto

theorem isLabelByte_not_control {c : Char} (hc : c.toNat < 128)
    (h : isLabelByte (UInt8.ofNat c.toNat) = true) : isControl c = false := by
  simp only [isLabelByte, isAsciiLowercase, isAsciiDigit, Bool.or_eq_true, Bool.and_eq_true,
    decide_eq_true_eq, UInt8.le_iff_toNat_le, beq_iff_eq, ← UInt8.toNat_inj] at h
  rw [UInt8.toNat_ofNat', Nat.mod_eq_of_lt (by omega)] at h
  have h45 : (45 : UInt8).toNat = 45 := rfl
  have h48 : (48 : UInt8).toNat = 48 := rfl
  have h57 : (57 : UInt8).toNat = 57 := rfl
  have h97 : (97 : UInt8).toNat = 97 := rfl
  have h122 : (122 : UInt8).toNat = 122 := rfl
  simp only [isControl, Bool.or_eq_false_iff, decide_eq_false_iff_not, Bool.and_eq_false_iff]
  omega

theorem ofNat_eq_hyphen {c : Char} (hc : c.toNat < 128) :
    UInt8.ofNat c.toNat = 45 ↔ c = '-' := by
  constructor
  · intro h
    have hnat := congrArg UInt8.toNat h
    rw [UInt8.toNat_ofNat', Nat.mod_eq_of_lt (by omega)] at hnat
    exact Char.toNat_inj.mp hnat
  · rintro rfl
    rfl

theorem isEmpty_iff_toList (s : String) : s.isEmpty = false ↔ s.toList ≠ [] := by
  rw [ne_eq, String.toList_eq_nil_iff, ← String.isEmpty_iff, Bool.not_eq_true]

/-- over a text of label bytes, both ends are alphanumeric exactly if neither is a hyphen -/
theorem ends_alphanumeric {s : String} (hne : s.isEmpty = false)
    (hlabel : ∀ b ∈ asBytes s, isLabelByte b = true) :
    ((asBytes s).head?.any isAsciiAlphanumeric = true ↔ s.toList.head? ≠ some '-') ∧
      ((asBytes s).getLast?.any isAsciiAlphanumeric = true ↔ s.toList.getLast? ≠ some '-') := by
  obtain ⟨hascii, hbytes⟩ := asBytes_ascii fun b hb => isLabelByte_lt (hlabel b hb)
  have hend : ∀ c ∈ s.toList,
      isAsciiAlphanumeric (UInt8.ofNat c.toNat) = true ↔ c ≠ '-' := by
    intro c hc
    have hmem : UInt8.ofNat c.toNat ∈ asBytes s := hbytes ▸ List.mem_map_of_mem hc
    rw [isLabelByte_alphanumeric (hlabel _ hmem), ne_eq, ofNat_eq_hyphen (hascii c hc)]
  have hnil : s.toList ≠ [] := (isEmpty_iff_toList s).mp hne
  rw [hbytes, List.head?_map, List.getLast?_map]
  rw [List.head?_eq_some_head hnil, List.getLast?_eq_some_getLast hnil]
  simp only [Option.map_some, Option.any_some, ne_eq, Option.some.injEq]
  exact ⟨hend _ (List.head_mem hnil), hend _ (List.getLast_mem hnil)⟩

/-- a text of label bytes has no control character -/
theorem label_no_control {s : String} (hlabel : ∀ b ∈ asBytes s, isLabelByte b = true) :
    s.toList.any isControl = false := by
  obtain ⟨hascii, hbytes⟩ := asBytes_ascii fun b hb => isLabelByte_lt (hlabel b hb)
  rw [List.any_eq_false]
  intro c hc
  have hmem : UInt8.ofNat c.toNat ∈ asBytes s := hbytes ▸ List.mem_map_of_mem hc
  rw [isLabelByte_not_control (hascii c hc) (hlabel _ hmem)]
  exact Bool.false_ne_true

/-! ## what each check accepts -/

theorem Config.validateRegion_eq_ok {r : String} :
    Config.validateRegion r = .ok () ↔
      r.isEmpty = false ∧ len r ≤ 63 ∧ (∀ b ∈ asBytes r, isLabelByte b = true) ∧
        r.toList.head? ≠ some '-' ∧ r.toList.getLast? ≠ some '-' := by
  have hbyte : ∀ b : UInt8,
      (!isAsciiLowercase b && !isAsciiDigit b && b != 45) = !isLabelByte b := by
    intro b
    simp only [isLabelByte, Bool.not_or, bne]
  simp only [Config.validateRegion, hbyte]
  split
  · rename_i h
    refine ⟨nofun, ?_⟩
    rintro ⟨hne, hlen, hlabel, hfirst, hlast⟩
    simp [hne, Nat.not_lt.mpr hlen, hfirst, hlast] at h
    obtain ⟨b, hb, hnot⟩ := h
    rw [hlabel b hb] at hnot
    cases hnot
  · rename_i h
    simp only [Bool.or_eq_true, not_or, Bool.not_eq_true, decide_eq_false_iff_not, Nat.not_lt,
      beq_eq_false_iff_ne, List.any_eq_false, Bool.not_eq_eq_eq_not, Bool.not_true] at h
    obtain ⟨⟨⟨⟨hne, hlen⟩, hfirst⟩, hlast⟩, hlabel⟩ := h
    refine ⟨fun _ => ⟨hne, hlen, fun b hb => ?_, hfirst, hlast⟩, fun _ => rfl⟩
    simpa using hlabel b hb

theorem validateIdentifier_iff {field value : String} {maximum : Nat} :
    validateIdentifier field value maximum = .ok () ↔
      value.isEmpty = false ∧ len value ≤ maximum ∧ value.toList.any isControl = false := by
  unfold validateIdentifier
  split_ifs with hlen hcontrol
  · simp only [Bool.or_eq_true, decide_eq_true_eq] at hlen
    refine ⟨nofun, ?_⟩
    rintro ⟨hne, hle, -⟩
    rw [hne] at hlen
    exact absurd hle (Nat.not_le.mpr (hlen.resolve_left Bool.false_ne_true))
  · refine ⟨nofun, ?_⟩
    rintro ⟨-, -, hnone⟩
    rw [hnone] at hcontrol
    cases hcontrol
  · simp only [Bool.or_eq_true, decide_eq_true_eq, not_or, Bool.not_eq_true, Nat.not_lt] at hlen
    exact ⟨fun _ => ⟨hlen.1, hlen.2, Bool.not_eq_true _ ▸ hcontrol⟩, fun _ => rfl⟩

theorem validateRegion_eq_ok {r : String} :
    validateRegion r = .ok () ↔
      (r.isEmpty = false ∧ len r ≤ 63 ∧ r.toList.any isControl = false) ∧
        wellFormedLabel (fun b => b == 45) (asBytes r) = true := by
  simp only [validateRegion, except_bind_eq_ok]
  constructor
  · rintro ⟨_, hid, h⟩
    refine ⟨validateIdentifier_iff.mp hid, ?_⟩
    split at h
    · cases h
    · rename_i hlabel
      simpa using hlabel
  · rintro ⟨hid, hlabel⟩
    refine ⟨(), validateIdentifier_iff.mpr hid, ?_⟩
    rw [hlabel]
    rfl

theorem wellFormedLabel_iff {bytes : List UInt8} :
    wellFormedLabel (fun b => b == 45) bytes = true ↔
      bytes.head?.any isAsciiAlphanumeric = true ∧
        bytes.getLast?.any isAsciiAlphanumeric = true ∧ ∀ b ∈ bytes, isLabelByte b = true := by
  simp only [wellFormedLabel, Bool.and_eq_true, List.all_eq_true, isLabelByte, and_assoc]

/-- the first and the last byte of a text that is not empty exist -/
theorem validateRegionIndexed_eq (r : String) :
    validateRegionIndexed r = some (validateRegion r) := by
  unfold validateRegionIndexed validateRegion
  cases hid : validateIdentifier "region" r maxRegionLength with
  | error error => rfl
  | ok _ =>
    obtain ⟨hne, -⟩ := validateIdentifier_iff.mp hid
    have hnil : asBytes r ≠ [] := by
      have hpos : 1 ≤ (asBytes r).length :=
        (nonempty_length hne).trans (length_asBytes r ▸ length_le_len r)
      exact List.ne_nil_of_length_pos hpos
    simp only [← List.head?_eq_getElem?, ← List.getLast?_eq_getElem?, wellFormedLabel,
      List.head?_eq_some_head hnil, List.getLast?_eq_some_getLast hnil, Option.any_some,
      Option.bind_eq_bind, Option.bind_some]
    -- the three tests in the order of the source
    cases isAsciiAlphanumeric ((asBytes r).head hnil) with
    | false => rfl
    | true =>
      cases isAsciiAlphanumeric ((asBytes r).getLast hnil) with
      | false => rfl
      | true =>
        cases (asBytes r).all fun b => isAsciiLowercase b || isAsciiDigit b || b == 45 with
        | false => rfl
        | true => rfl

/-! ## the comparison -/

/-- **the two checks of a region accept the same texts**, the indexing of the second never fails,
a configured region is the region of a valid spec, and a region that passes the handler's
comparison with the configured one fits its column -/
theorem region_validators_agree (r : String) :
    (Config.validateRegion r = .ok () ↔ validateRegion r = .ok ()) ∧
      validateRegionIndexed r = some (validateRegion r) ∧
      (Config.validateRegion r = .ok () →
        ∃ spec : SyouyuSpec, spec.region = r ∧ spec.validate = .ok ()) ∧
      ∀ state claims s headers request command, state.storageRegion = r →
        Config.validateRegion r = .ok () →
        reconcileCommand state claims s headers request = .ok command →
          command.spec.region = r ∧ textBetween 1 64 command.spec.region = true := by
  have hagree : Config.validateRegion r = .ok () ↔ validateRegion r = .ok () := by
    rw [Config.validateRegion_eq_ok, validateRegion_eq_ok, wellFormedLabel_iff]
    constructor
    · rintro ⟨hne, hlen, hlabel, hfirst, hlast⟩
      obtain ⟨hhead, hend⟩ := ends_alphanumeric hne hlabel
      exact ⟨⟨hne, hlen, label_no_control hlabel⟩, hhead.mpr hfirst, hend.mpr hlast, hlabel⟩
    · rintro ⟨⟨hne, hlen, -⟩, hfirst, hlast, hlabel⟩
      obtain ⟨hhead, hend⟩ := ends_alphanumeric hne hlabel
      exact ⟨hne, hlen, hlabel, hhead.mp hfirst, hend.mp hlast⟩
  refine ⟨hagree, validateRegionIndexed_eq r, ?_, ?_⟩
  · intro hconfig
    refine ⟨⟨r, "bucket", 1, 1⟩, rfl, ?_⟩
    simp only [SyouyuSpec.validate, except_bind_eq_ok]
    have hquota : (BucketQuota.mk 1 1).validate = .ok () := by decide
    exact ⟨(), hagree.mp hconfig, (), by decide, hquota⟩
  · rintro state claims s headers request command rfl hconfig h
    obtain ⟨_, -, h⟩ := except_bind_eq_ok.mp h
    obtain ⟨_, -, h⟩ := except_bind_eq_ok.mp h
    split at h
    · cases h
    · rename_i hregion
      obtain rfl := Except.ok.inj h
      have heq : request.spec.region = state.storageRegion := not_not.mp hregion
      refine ⟨heq, ?_⟩
      rw [heq]
      exact validateRegion_stores (hagree.mp hconfig)

end Syouyu
