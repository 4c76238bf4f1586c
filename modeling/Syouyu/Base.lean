import Mathlib.Tactic

/-!
# Identifiers, texts and JSON values

The values the crates pass around, below any business rule:

* `Uuid`        128 bits; `Uuid.toString` is the hyphenated lower-case form of `Display`
                (`Uuid.toString_injective`), `Uuid.asBytes` the sixteen bytes;
* `Timestamp`   microseconds since the epoch, the resolution of `TIMESTAMPTZ`;
* text helpers  `len` counts bytes as `str::len` does, `String.length` counts characters as
                `char_length` does; `textStorable` says that PostgreSQL can hold a text;
* `Value`       `serde_json::Value`, with decidable equality.
-/

namespace Syouyu

/-! ## identifiers and clocks -/

abbrev Uuid := BitVec 128

namespace Uuid

def isNil (u : Uuid) : Bool := decide (u = 0)

def hexDigit (n : Nat) : Char := "0123456789abcdef".toList.getD n '0'

/-- the lowest `w` hexadecimal digits of `n`, most significant first -/
def hexDigits : Nat → Nat → List Char
  | 0, _ => []
  | w + 1, n => hexDigits w (n / 16) ++ [hexDigit (n % 16)]

/-- `xxxxxxxx-xxxx-xxxx-xxxx-xxxxxxxxxxxx` -/
def chars (u : Uuid) : List Char :=
  hexDigits 8 (u.toNat / 16 ^ 24) ++ '-' :: (hexDigits 4 (u.toNat / 16 ^ 20) ++
    '-' :: (hexDigits 4 (u.toNat / 16 ^ 16) ++ '-' :: (hexDigits 4 (u.toNat / 16 ^ 12) ++
    '-' :: hexDigits 12 u.toNat)))

def toString (u : Uuid) : String := String.ofList u.chars

/-- the sixteen bytes, most significant first -/
def asBytes (u : Uuid) : List UInt8 :=
  (List.range 16).map fun i => UInt8.ofNat (u.toNat / 256 ^ (15 - i))

theorem hexDigit_inj {m n : Nat} (hm : m < 16) (hn : n < 16) (h : hexDigit m = hexDigit n) :
    m = n := by
  have key : ∀ a : Fin 16, ∀ b : Fin 16, hexDigit a.val = hexDigit b.val → a = b := by decide
  exact congrArg Fin.val (key ⟨m, hm⟩ ⟨n, hn⟩ h)

theorem length_hexDigits (w n : Nat) : (hexDigits w n).length = w := by
  induction w generalizing n with
  | zero => rfl
  | succ w ih => simp [hexDigits, ih]

theorem hexDigits_inj {w m n : Nat} (h : hexDigits w m = hexDigits w n) :
    m % 16 ^ w = n % 16 ^ w := by
  induction w generalizing m n with
  | zero => simp [Nat.mod_one]
  | succ w ih =>
    obtain ⟨h1, h2⟩ := List.append_inj h (by simp [length_hexDigits])
    have hd := hexDigit_inj (Nat.mod_lt m (by norm_num)) (Nat.mod_lt n (by norm_num))
      (List.singleton_inj.mp h2)
    have hq := ih h1
    rw [pow_succ, Nat.mul_comm, Nat.mod_mul, Nat.mod_mul, hd, hq]

theorem length_chars (u : Uuid) : u.chars.length = 36 := by
  simp [chars, length_hexDigits]

theorem length_toString (u : Uuid) : u.toString.length = 36 := by
  rw [toString, String.length_ofList, length_chars]

theorem hexDigit_mem (n : Nat) : hexDigit n ∈ "0123456789abcdef".toList := by
  unfold hexDigit
  rw [List.getD_eq_getElem?_getD]
  cases h : "0123456789abcdef".toList[n]? with
  | none => decide
  | some c => exact List.mem_of_getElem? h

theorem mem_hexDigits {w n : Nat} {c : Char} (h : c ∈ hexDigits w n) :
    c ∈ "0123456789abcdef".toList := by
  induction w generalizing n with
  | zero => cases h
  | succ w ih =>
    obtain h | h := List.mem_append.mp h
    · exact ih h
    · exact List.mem_singleton.mp h ▸ hexDigit_mem _

/-- the characters of an id are hexadecimal digits and hyphens -/
theorem mem_chars {u : Uuid} {c : Char} (h : c ∈ u.chars) : c ∈ "-0123456789abcdef".toList := by
  have hdigit : ∀ {w n : Nat}, c ∈ hexDigits w n → c ∈ "-0123456789abcdef".toList :=
    fun h => List.mem_cons_of_mem '-' (mem_hexDigits h)
  simp only [chars, List.mem_append, List.mem_cons] at h
  obtain h | rfl | h | rfl | h | rfl | h | rfl | h := h
  all_goals first | exact hdigit h | decide

theorem chars_injective {u v : Uuid} (h : u.chars = v.chars) : u = v := by
  unfold chars at h
  obtain ⟨h1, h⟩ := List.append_inj h (by simp [length_hexDigits])
  obtain ⟨h2, h⟩ := List.append_inj (List.cons.inj h).2 (by simp [length_hexDigits])
  obtain ⟨h3, h⟩ := List.append_inj (List.cons.inj h).2 (by simp [length_hexDigits])
  obtain ⟨h4, h⟩ := List.append_inj (List.cons.inj h).2 (by simp [length_hexDigits])
  have e1 := hexDigits_inj h1
  have e2 := hexDigits_inj h2
  have e3 := hexDigits_inj h3
  have e4 := hexDigits_inj h4
  have e5 := hexDigits_inj (List.cons.inj h).2
  have hu := u.isLt
  have hv := v.isLt
  apply BitVec.eq_of_toNat_eq
  norm_num at e1 e2 e3 e4 e5 hu hv
  omega

theorem toString_injective {u v : Uuid} (h : u.toString = v.toString) : u = v :=
  chars_injective (String.ofList_injective h)

end Uuid

/-- microseconds since the Unix epoch -/
abbrev Timestamp := Int

/-- `n * interval '1 second'` -/
def seconds (n : Int) : Timestamp := n * 1000000

/-- `[u8; 32]` -/
abbrev Hash := BitVec 256

/-! ## texts -/

/-- `str::len`: bytes, not characters -/
def len (s : String) : Nat := s.utf8ByteSize

/-- `str::as_bytes` -/
def asBytes (s : String) : List UInt8 := s.toUTF8.data.toList

/-- `TEXT` and `JSONB` strings hold every character but U+0000. -/
def textStorable (s : String) : Bool := !s.toList.contains '\x00'

/-- `char_length(s) BETWEEN lo AND hi`, for a text PostgreSQL can hold -/
def textBetween (lo hi : Nat) (s : String) : Bool :=
  textStorable s && decide (lo ≤ s.length) && decide (s.length ≤ hi)

/-- `char::is_control`: the category Cc -/
def isControl (c : Char) : Bool := c.toNat ≤ 0x1f || (0x7f ≤ c.toNat && c.toNat ≤ 0x9f)

/-- `char::is_whitespace`: the property White_Space -/
def isWhitespace (c : Char) : Bool :=
  (0x09 ≤ c.toNat && c.toNat ≤ 0x0d) || c.toNat == 0x20 || c.toNat == 0x85 || c.toNat == 0xa0 ||
    c.toNat == 0x1680 || (0x2000 ≤ c.toNat && c.toNat ≤ 0x200a) || c.toNat == 0x2028 ||
    c.toNat == 0x2029 || c.toNat == 0x202f || c.toNat == 0x205f || c.toNat == 0x3000

/-- `str::trim` -/
def trim (s : String) : String :=
  String.ofList ((s.toList.dropWhile isWhitespace).reverse.dropWhile isWhitespace).reverse

def isAsciiLowercase (b : UInt8) : Bool := 97 ≤ b && b ≤ 122
def isAsciiUppercase (b : UInt8) : Bool := 65 ≤ b && b ≤ 90
def isAsciiDigit (b : UInt8) : Bool := 48 ≤ b && b ≤ 57
def isAsciiAlphanumeric (b : UInt8) : Bool :=
  isAsciiLowercase b || isAsciiUppercase b || isAsciiDigit b

/-! ## characters and bytes -/

theorem asBytes_eq (s : String) : asBytes s = s.toList.flatMap String.utf8EncodeChar := by
  have h : s.toByteArray = s.toList.utf8Encode := String.utf8Encode_toList.symm
  show s.toByteArray.data.toList = _
  rw [h, List.utf8Encode, List.data_toByteArray]

theorem length_asBytes (s : String) : (asBytes s).length = len s := by
  show s.toByteArray.data.toList.length = s.utf8ByteSize
  rw [Array.length_toList]
  rfl

theorem asBytes_injective {s t : String} (h : asBytes s = asBytes t) : s = t := by
  have harray : s.toByteArray.data = t.toByteArray.data := Array.toList_inj.mp h
  exact String.toByteArray_inj.mp (ByteArray.ext harray)

/-- a text has at most as many characters as bytes -/
theorem length_le_len (s : String) : s.length ≤ len s := by
  rw [← length_asBytes, asBytes_eq, ← String.length_toList]
  induction s.toList with
  | nil => exact le_refl _
  | cons c cs ih =>
    have hpos : 0 < (String.utf8EncodeChar c).length :=
      List.length_pos_of_ne_nil String.utf8EncodeChar_ne_nil
    rw [List.flatMap_cons, List.length_append, List.length_cons]
    omega

/-- and at most four bytes for each character -/
theorem len_le_length (s : String) : len s ≤ 4 * s.length := by
  rw [← length_asBytes, asBytes_eq, ← String.length_toList]
  induction s.toList with
  | nil => exact le_refl _
  | cons c cs ih =>
    have hsize : (String.utf8EncodeChar c).length ≤ 4 := by
      rw [String.length_utf8EncodeChar]
      exact c.utf8Size_le_four
    rw [List.flatMap_cons, List.length_append, List.length_cons]
    omega

theorem utf8EncodeChar_ascii {c : Char} (h : c.toNat < 128) :
    String.utf8EncodeChar c = [UInt8.ofNat c.toNat] := by
  have hv : c.val.toNat ≤ 127 := Nat.le_of_lt_succ h
  simp only [String.utf8EncodeChar]
  rw [if_pos hv]
  rfl

/-- the bytes of a character beyond ASCII are all at least 128 -/
theorem utf8EncodeChar_high {c : Char} (h : 128 ≤ c.toNat) {b : UInt8}
    (hb : b ∈ String.utf8EncodeChar c) : 128 ≤ b.toNat := by
  have hv : ¬c.val.toNat ≤ 127 := Nat.not_le.mpr h
  have hbyte : ∀ n, 128 ≤ n → n < 256 → 128 ≤ (UInt8.ofNat n).toNat := by
    intro n hlo hhi
    rw [UInt8.toNat_ofNat', Nat.mod_eq_of_lt hhi]
    exact hlo
  simp only [String.utf8EncodeChar] at hb
  rw [if_neg hv] at hb
  split_ifs at hb <;> simp only [List.mem_cons, List.not_mem_nil, or_false] at hb
  · obtain rfl | rfl := hb
    all_goals exact hbyte _ (by omega) (by omega)
  · obtain rfl | rfl | rfl := hb
    all_goals exact hbyte _ (by omega) (by omega)
  · obtain rfl | rfl | rfl | rfl := hb
    all_goals exact hbyte _ (by omega) (by omega)

/-- an ASCII text has a byte for each character -/
theorem asBytes_chars {s : String} (h : ∀ c ∈ s.toList, c.toNat < 128) :
    asBytes s = s.toList.map fun c => UInt8.ofNat c.toNat := by
  rw [asBytes_eq, List.map_eq_flatMap,
    List.flatMap_congr fun c hc => utf8EncodeChar_ascii (h c hc)]

theorem len_chars {s : String} (h : ∀ c ∈ s.toList, c.toNat < 128) : len s = s.length := by
  rw [← length_asBytes, asBytes_chars h, List.length_map, String.length_toList]

/-- a text whose bytes are all below 128 has one byte for each character -/
theorem asBytes_ascii {s : String} (h : ∀ b ∈ asBytes s, b.toNat < 128) :
    (∀ c ∈ s.toList, c.toNat < 128) ∧
      asBytes s = s.toList.map fun c => UInt8.ofNat c.toNat := by
  rw [asBytes_eq] at h
  have hchars : ∀ c ∈ s.toList, c.toNat < 128 := by
    intro c hc
    by_contra hhigh
    obtain ⟨b, hb⟩ := List.exists_mem_of_ne_nil _ (String.utf8EncodeChar_ne_nil (c := c))
    have hlow := h b (List.mem_flatMap.mpr ⟨c, hc, hb⟩)
    have := utf8EncodeChar_high (Nat.not_lt.mp hhigh) hb
    omega
  exact ⟨hchars, asBytes_chars hchars⟩

/-- U+0000 is the byte 0, so a text without that byte can be stored -/
theorem textStorable_of_bytes {s : String} (h : (0 : UInt8) ∉ asBytes s) :
    textStorable s = true := by
  have hmem : '\x00' ∉ s.toList := by
    intro hc
    apply h
    rw [asBytes_eq, List.mem_flatMap]
    exact ⟨_, hc, by decide⟩
  simpa [textStorable] using hmem

theorem nonempty_length {s : String} (h : s.isEmpty = false) : 1 ≤ s.length := by
  rw [← String.length_toList]
  refine List.length_pos_of_ne_nil fun hnil => ?_
  rw [String.toList_eq_nil_iff.mp hnil] at h
  cases h

/-! ## JSON -/

/-- the three shapes of a `serde_json::Number` -/
inductive Number where
  | posInt (n : UInt64)
  | negInt (n : Int64)
  | float (bits : UInt64)
  deriving DecidableEq, Repr

/-- `serde_json::Value`; the fields of an object stand in the order they are written -/
inductive Value where
  | null
  | bool (b : Bool)
  | number (n : Number)
  | string (s : String)
  | array (items : List Value)
  | object (fields : List (String × Value))
  deriving Repr, Inhabited

namespace Value

mutual
def same (a b : Value) : Bool :=
  match a with
  | .null => match b with | .null => true | _ => false
  | .bool x => match b with | .bool y => x == y | _ => false
  | .number x => match b with | .number y => x == y | _ => false
  | .string x => match b with | .string y => x == y | _ => false
  | .array xs => match b with | .array ys => sameItems xs ys | _ => false
  | .object xs => match b with | .object ys => sameFields xs ys | _ => false
termination_by structural a
def sameItems (a b : List Value) : Bool :=
  match a with
  | [] => b.isEmpty
  | x :: xs => match b with
    | [] => false
    | y :: ys => same x y && sameItems xs ys
termination_by structural a
def sameFields (a b : List (String × Value)) : Bool :=
  match a with
  | [] => b.isEmpty
  | x :: xs => match b with
    | [] => false
    | y :: ys => sameField x y && sameFields xs ys
termination_by structural a
def sameField (a b : String × Value) : Bool :=
  match a with
  | (k, v) => k == b.1 && same v b.2
termination_by structural a
end

mutual
theorem same_iff : ∀ a b : Value, same a b = true ↔ a = b
  | .null, b => by cases b <;> simp [same]
  | .bool _, b => by cases b <;> simp [same]
  | .number _, b => by cases b <;> simp [same]
  | .string _, b => by cases b <;> simp [same]
  | .array xs, b => by cases b <;> simp [same, sameItems_iff xs]
  | .object xs, b => by cases b <;> simp [same, sameFields_iff xs]
theorem sameItems_iff : ∀ a b : List Value, sameItems a b = true ↔ a = b
  | [], b => by cases b <;> simp [sameItems]
  | x :: xs, b => by
    cases b with
    | nil => simp [sameItems]
    | cons y ys => simp [sameItems, same_iff x, sameItems_iff xs]
theorem sameFields_iff : ∀ a b : List (String × Value), sameFields a b = true ↔ a = b
  | [], b => by cases b <;> simp [sameFields]
  | x :: xs, b => by
    cases b with
    | nil => simp [sameFields]
    | cons y ys => simp [sameFields, sameField_iff x, sameFields_iff xs]
theorem sameField_iff : ∀ a b : String × Value, sameField a b = true ↔ a = b
  | (_, v), (_, w) => by simp [sameField, same_iff v w]
end

instance : DecidableEq Value := fun a b => decidable_of_iff _ (same_iff a b)

mutual
/-- `JSONB` refuses U+0000 in every string and key. -/
def storable : Value → Bool
  | .string s => textStorable s
  | .array items => storableItems items
  | .object fields => storableFields fields
  | _ => true
def storableItems : List Value → Bool
  | [] => true
  | v :: items => storable v && storableItems items
def storableFields : List (String × Value) → Bool
  | [] => true
  | f :: fields => storableField f && storableFields fields
def storableField : String × Value → Bool
  | (k, v) => textStorable k && storable v
end

/-- `Value::is_object` -/
def isObject : Value → Bool
  | .object _ => true
  | _ => false

/-- a `u64` as serde writes it -/
def ofU64 (n : UInt64) : Value := .number (.posInt n)

/-- an `i64` as serde writes it -/
def ofI64 (n : Int64) : Value :=
  if 0 ≤ n then .number (.posInt n.toUInt64) else .number (.negInt n)

def ofUuid (u : Uuid) : Value := .string u.toString

/-- the value of a field of an object -/
def field? (v : Value) (name : String) : Option Value :=
  match v with
  | .object fields => (fields.find? fun f => f.1 == name).map Prod.snd
  | _ => none

def asStr? : Value → Option String
  | .string s => some s
  | _ => none

def asU64? : Value → Option UInt64
  | .number (.posInt n) => some n
  | _ => none

def asBool? : Value → Option Bool
  | .bool b => some b
  | _ => none

end Value

/-- `serde_json::to_vec` and `serde_json::from_slice` on values: reading undoes writing. -/
structure JsonCodec where
  toVec : Value → List UInt8
  fromSlice : List UInt8 → Option Value
  fromSlice_toVec : ∀ v, fromSlice (toVec v) = some v

end Syouyu
