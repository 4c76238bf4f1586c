import Syouyu.Base
import Syouyu.Lib.Encoding

/-!
# How JSON values are written

`serde_json::to_vec` with its compact formatter: no blanks, strings escaped byte by byte, numbers in
decimal.  A float is written by a crate of its own, which is a parameter here.

* `Json.write`          the writer;
* `Json.Plain`          values without floats, whose negative numbers are negative;
* `Json.write_reads`    such a value is found again at the front of a longer text, if a comma, a
                        closing bracket or nothing follows.
-/

set_option linter.unusedSectionVars false

namespace Syouyu.Json
open Lib.Encoding

/-! ## the writer -/

/-- `itoa` without a sign -/
def decimal (n : Nat) : List UInt8 := asBytes n.repr

/-- `itoa` -/
def integer (n : Int) : List UInt8 := if n < 0 then 45 :: decimal n.natAbs else decimal n.natAbs

def hexByte (n : Nat) : UInt8 := (asBytes "0123456789abcdef").getD n 0

/-- a byte of a string: quotes, backslashes and control characters are escaped, every other byte
stands for itself -/
def escapeByte (b : UInt8) : List UInt8 :=
  if b = 34 then [92, 34]
  else if b = 92 then [92, 92]
  else if b = 8 then [92, 98]
  else if b = 9 then [92, 116]
  else if b = 10 then [92, 110]
  else if b = 12 then [92, 102]
  else if b = 13 then [92, 114]
  else if b < 32 then [92, 117, 48, 48, hexByte (b.toNat / 16), hexByte (b.toNat % 16)]
  else [b]

/-- the text between quotes, the closing quote included -/
def string (s : String) : List UInt8 := 34 :: closed escapeByte 34 (asBytes s)

section
variable (ryu : UInt64 → List UInt8)

def number : Number → List UInt8
  | .posInt n => decimal n.toNat
  | .negInt n => integer n.toInt
  | .float bits => ryu bits

mutual
def write : Value → List UInt8
  | .null => asBytes "null"
  | .bool b => asBytes (if b then "true" else "false")
  | .number n => number ryu n
  | .string s => string s
  | .array vs => 91 :: items vs
  | .object fs => 123 :: fields fs
/-- what follows the opening bracket: a comma before every value but the first -/
def items : List Value → List UInt8
  | [] => [93]
  | v :: vs => write v ++ moreItems vs
def moreItems : List Value → List UInt8
  | [] => [93]
  | v :: vs => 44 :: (write v ++ moreItems vs)
def fields : List (String × Value) → List UInt8
  | [] => [125]
  | f :: fs => field f ++ moreFields fs
def moreFields : List (String × Value) → List UInt8
  | [] => [125]
  | f :: fs => 44 :: (field f ++ moreFields fs)
def field : String × Value → List UInt8
  | (k, v) => string k ++ 58 :: write v
end

theorem field_eq : field ryu = fun f => string f.1 ++ ([58] ++ write ryu f.2) := by
  funext f
  obtain ⟨k, v⟩ := f
  rfl

theorem moreItems_eq (vs : List Value) : moreItems ryu vs = separated (write ryu) 44 93 vs := by
  induction vs with
  | nil => rfl
  | cons v vs ih =>
    rw [moreItems, ih]
    rfl

theorem items_eq (vs : List Value) : items ryu vs = listed (write ryu) 44 93 vs := by
  cases vs with
  | nil => rfl
  | cons v vs =>
    rw [items, moreItems_eq]
    rfl

theorem moreFields_eq (fs : List (String × Value)) :
    moreFields ryu fs = separated (field ryu) 44 125 fs := by
  induction fs with
  | nil => rfl
  | cons f fs ih =>
    rw [moreFields, ih]
    rfl

theorem fields_eq (fs : List (String × Value)) :
    fields ryu fs = listed (field ryu) 44 125 fs := by
  cases fs with
  | nil => rfl
  | cons f fs =>
    rw [fields, moreFields_eq]
    rfl

end

/-! ## plain values -/

/-- `Number` keeps non-negative integers as `PosInt` -/
def plainNumber : Number → Bool
  | .posInt _ => true
  | .negInt n => decide (n < 0)
  | .float _ => false

mutual
def plain : Value → Bool
  | .number n => plainNumber n
  | .array vs => plainItems vs
  | .object fs => plainFields fs
  | _ => true
def plainItems : List Value → Bool
  | [] => true
  | v :: vs => plain v && plainItems vs
def plainFields : List (String × Value) → Bool
  | [] => true
  | f :: fs => plainField f && plainFields fs
def plainField : String × Value → Bool
  | (_, v) => plain v
end

/-- no float, and no `NegInt` that is not negative -/
def Plain (v : Value) : Prop := plain v = true

instance (v : Value) : Decidable (Plain v) := inferInstanceAs (Decidable (plain v = true))

theorem plain_ofI64 (n : Int64) : plain (.ofI64 n) = true := by
  unfold Value.ofI64
  split
  · rfl
  · rename_i h
    exact decide_eq_true (Int64.not_le.mp h)

theorem plainItems_iff (vs : List Value) : plainItems vs = true ↔ ∀ v ∈ vs, Plain v := by
  induction vs with
  | nil => simp [plainItems]
  | cons v vs ih => simp [plainItems, ih, Plain]

theorem plainFields_iff (fs : List (String × Value)) :
    plainFields fs = true ↔ ∀ f ∈ fs, Plain f.2 := by
  induction fs with
  | nil => simp [plainFields]
  | cons f fs ih =>
    obtain ⟨k, v⟩ := f
    simp [plainFields, plainField, ih, Plain]

/-! ## numbers and strings -/

theorem decimal_digits {n : Nat} {b : UInt8} (h : b ∈ decimal n) : isAsciiDigit b = true := by
  rw [decimal, asBytes_eq, List.mem_flatMap] at h
  obtain ⟨c, hc, hb⟩ := h
  rw [Nat.toList_repr] at hc
  have hdigit := Nat.isDigit_of_mem_toDigits (by decide) (by decide) hc
  simp only [Char.isDigit, Bool.and_eq_true, decide_eq_true_eq, ge_iff_le,
    UInt32.le_iff_toNat_le] at hdigit
  have hlo : 48 ≤ c.toNat := hdigit.1
  have hhi : c.toNat ≤ 57 := hdigit.2
  rw [utf8EncodeChar_ascii (by omega), List.mem_singleton] at hb
  subst hb
  simp only [isAsciiDigit, Bool.and_eq_true, decide_eq_true_eq, UInt8.le_iff_toNat_le,
    UInt8.toNat_ofNat']
  rw [Nat.mod_eq_of_lt (by omega)]
  exact ⟨hlo, hhi⟩

theorem decimal_injective {m n : Nat} (h : decimal m = decimal n) : m = n := by
  have hdigits : Nat.toDigits 10 m = Nat.toDigits 10 n := by
    rw [← Nat.toList_repr, asBytes_injective h, Nat.toList_repr]
  rw [← Nat.ofDigitChars_toDigits (b := 10) (n := m) (by decide) (le_refl _), hdigits,
    Nat.ofDigitChars_toDigits (by decide) (le_refl _)]

theorem decimal_lead (n : Nat) : ∃ b x, decimal n = b :: x ∧ isAsciiDigit b = true := by
  cases hd : decimal n with
  | nil =>
    have hempty : n.repr = "" := asBytes_injective hd
    have hnil := congrArg String.toList hempty
    rw [Nat.toList_repr] at hnil
    exact absurd hnil Nat.toDigits_ne_nil
  | cons b x => exact ⟨b, x, rfl, decimal_digits (hd ▸ List.mem_cons_self)⟩

/-- what may follow a value: nothing, a comma or a closing bracket -/
def Follows : List UInt8 → Prop := fun s => s.head?.all (fun b => b == 44 || b == 93 || b == 125)

theorem follows_stops {s : List UInt8} (h : Follows s) : Stops isAsciiDigit s := by
  cases s with
  | nil => rfl
  | cons b s =>
    simp only [Follows, List.head?_cons, Option.all_some, Bool.or_eq_true, beq_iff_eq] at h
    rcases h with (rfl | rfl) | rfl <;> rfl

theorem decimal_reads (n : Nat) : Reads (fun _ => True) Follows decimal n :=
  (reads_span (fun _ _ _ hc => decimal_digits hc) fun _ _ _ h => decimal_injective h).mono
    (fun _ h => h) fun _ => follows_stops

/-- of two plain numbers, a minus sign stands before the negative one -/
theorem number_reads (ryu : UInt64 → List UInt8) (n : Number) :
    Reads (fun n => plainNumber n = true) Follows (number ryu) n := by
  have hsign : ∀ m (s t : List UInt8), decimal m ++ s ≠ 45 :: t := by
    intro m s t h
    obtain ⟨b, x, hb, hdigit⟩ := decimal_lead m
    rw [hb] at h
    rw [(List.cons.inj h).1] at hdigit
    exact absurd hdigit (by decide)
  have hneg : ∀ {m : Int64}, plainNumber (.negInt m) = true →
      number ryu (.negInt m) = 45 :: decimal m.toInt.natAbs := by
    intro m hm
    have hlt : m.toInt < 0 := Int64.lt_iff_toInt_lt.mp (of_decide_eq_true hm)
    rw [number, integer, if_pos hlt]
  intro hn m s t hm hs ht heq
  cases n with
  | float bits => cases hn
  | posInt n =>
    cases m with
    | float bits => cases hm
    | posInt m =>
      obtain ⟨hnat, hst⟩ := decimal_reads n.toNat trivial m.toNat s t trivial hs ht heq
      exact ⟨by rw [UInt64.toNat_inj.mp hnat], hst⟩
    | negInt m =>
      rw [hneg hm] at heq
      exact absurd heq (hsign _ _ _)
  | negInt n =>
    cases m with
    | float bits => cases hm
    | posInt m =>
      rw [hneg hn] at heq
      exact absurd heq.symm (hsign _ _ _)
    | negInt m =>
      rw [hneg hn, hneg hm] at heq
      obtain ⟨habs, hst⟩ := decimal_reads n.toInt.natAbs trivial m.toInt.natAbs s t trivial hs ht
        (List.cons.inj heq).2
      have hn0 : n.toInt < 0 := Int64.lt_iff_toInt_lt.mp (of_decide_eq_true hn)
      have hm0 : m.toInt < 0 := Int64.lt_iff_toInt_lt.mp (of_decide_eq_true hm)
      have hint : n.toInt = m.toInt := by omega
      exact ⟨by rw [Int64.toInt_inj.mp hint], hst⟩

def unhex (b : UInt8) : Nat := (asBytes "0123456789abcdef").idxOf b

/-- the byte at the front of an escaped text, and the rest -/
def unescape : List UInt8 → Option (UInt8 × List UInt8)
  | 92 :: 117 :: _ :: _ :: high :: low :: rest =>
    some (UInt8.ofNat (16 * unhex high + unhex low), rest)
  | 92 :: 98 :: rest => some (8, rest)
  | 92 :: 116 :: rest => some (9, rest)
  | 92 :: 110 :: rest => some (10, rest)
  | 92 :: 102 :: rest => some (12, rest)
  | 92 :: 114 :: rest => some (13, rest)
  | 92 :: b :: rest => some (b, rest)
  | b :: rest => some (b, rest)
  | [] => none

theorem unhex_hexByte {b : UInt8} (h : b < 32) :
    UInt8.ofNat (16 * unhex (hexByte (b.toNat / 16)) + unhex (hexByte (b.toNat % 16))) = b := by
  have hall : ∀ i : Fin 32,
      16 * unhex (hexByte (i.1 / 16)) + unhex (hexByte (i.1 % 16)) = i.1 := by decide +kernel
  have hb : b.toNat < 32 := UInt8.lt_iff_toNat_lt.mp h
  rw [hall ⟨b.toNat, hb⟩, UInt8.ofNat_toNat]

theorem unescape_escapeByte (b : UInt8) (s : List UInt8) :
    unescape (escapeByte b ++ s) = some (b, s) := by
  unfold escapeByte
  split_ifs with h34 h92 h8 h9 h10 h12 h13 hcontrol
  · rw [h34]; rfl
  · rw [h92]; rfl
  · rw [h8]; rfl
  · rw [h9]; rfl
  · rw [h10]; rfl
  · rw [h12]; rfl
  · rw [h13]; rfl
  · show some (UInt8.ofNat (16 * unhex (hexByte (b.toNat / 16)) +
      unhex (hexByte (b.toNat % 16))), s) = some (b, s)
    rw [unhex_hexByte hcontrol]
  · -- every other byte stands for itself
    unfold unescape
    simp only [List.cons_append, List.nil_append]
    split
    all_goals simp_all

/-- no escaped byte begins with the quote -/
theorem escapeByte_opens : Opens (fun _ => True) escapeByte 34 := by
  intro b _
  unfold escapeByte
  split_ifs with h34 <;> exact ⟨_, _, rfl, by first | decide | exact h34⟩

theorem string_reads (s : String) : Reads (fun _ => True) Anything string s := by
  have hbyte : ∀ b, Reads (fun _ => True) Anything escapeByte b := fun b =>
    reads_reader fun c s _ => unescape_escapeByte c s
  have hclosed := closed_reads escapeByte_opens (fun b (_ : b ∈ asBytes s) => hbyte b)
    fun _ _ _ => trivial
  exact (hclosed.after [34]).map (fun _ _ _ _ => trivial) fun _ _ _ h => asBytes_injective h

/-! ## values -/

inductive Shape where
  | null
  | bool
  | number
  | string
  | array
  | object
  deriving DecidableEq

def shape : Value → Shape
  | .null => .null
  | .bool _ => .bool
  | .number _ => .number
  | .string _ => .string
  | .array _ => .array
  | .object _ => .object

/-- the shape a first byte announces -/
def shapeOf (b : UInt8) : Option Shape :=
  if b = 110 then some .null
  else if b = 116 ∨ b = 102 then some .bool
  else if isAsciiDigit b ∨ b = 45 then some .number
  else if b = 34 then some .string
  else if b = 91 then some .array
  else if b = 123 then some .object
  else none

theorem shapeOf_digit {b : UInt8} (h : isAsciiDigit b = true) : shapeOf b = some .number := by
  have hne : ∀ c, isAsciiDigit c = false → b ≠ c := by
    rintro c hc rfl
    exact absurd h (by rw [hc]; exact Bool.false_ne_true)
  rw [shapeOf, if_neg (hne 110 rfl), if_neg (not_or.mpr ⟨hne 116 rfl, hne 102 rfl⟩),
    if_pos (.inl h)]

theorem write_lead (ryu : UInt64 → List UInt8) {v : Value} (h : Plain v) :
    ∃ b x, write ryu v = b :: x ∧ shapeOf b = some (shape v) := by
  cases v with
  | null => exact ⟨110, _, rfl, rfl⟩
  | bool b =>
    cases b with
    | true => exact ⟨116, _, rfl, rfl⟩
    | false => exact ⟨102, _, rfl, rfl⟩
  | number n =>
    cases n with
    | posInt n =>
      obtain ⟨b, x, hb, hdigit⟩ := decimal_lead n.toNat
      exact ⟨b, x, hb, shapeOf_digit hdigit⟩
    | negInt n =>
      have hlt : n.toInt < 0 := Int64.lt_iff_toInt_lt.mp (of_decide_eq_true h)
      refine ⟨45, decimal n.toInt.natAbs, ?_, rfl⟩
      rw [write, number, integer, if_pos hlt]
    | float bits => cases h
  | string s => exact ⟨34, _, rfl, rfl⟩
  | array vs => exact ⟨91, _, rfl, rfl⟩
  | object fs => exact ⟨123, _, rfl, rfl⟩

theorem write_opens (ryu : UInt64 → List UInt8) : Opens Plain (write ryu) 93 := by
  intro v hv
  obtain ⟨b, x, hb, hshape⟩ := write_lead ryu hv
  refine ⟨b, x, hb, ?_⟩
  rintro rfl
  cases hshape

theorem field_opens (ryu : UInt64 → List UInt8) :
    Opens (fun f : String × Value => Plain f.2) (field ryu) 125 := by
  rw [field_eq]
  exact fun f _ => ⟨34, _, rfl, by decide⟩

theorem shape_eq (ryu : UInt64 → List UInt8) {v w : Value} (hv : Plain v) (hw : Plain w)
    {s t : List UInt8} (h : write ryu v ++ s = write ryu w ++ t) : shape v = shape w := by
  obtain ⟨b, x, hb, hshape⟩ := write_lead ryu hv
  obtain ⟨c, y, hc, hshape'⟩ := write_lead ryu hw
  rw [hb, hc] at h
  rw [(List.cons.inj h).1, hshape'] at hshape
  exact (Option.some.inj hshape).symm

theorem follows_cons {b : UInt8} (h : (b == 44 || b == 93 || b == 125) = true)
    (s : List UInt8) : Follows (b :: s) := h

mutual
/-- **a plain value is found again** before a comma, a closing bracket or the end -/
theorem write_reads (ryu : UInt64 → List UInt8) : ∀ v, Reads Plain Follows (write ryu) v
  | .null => by
    intro hv w s t hw hs ht heq
    cases w with
    | null => exact ⟨rfl, List.append_cancel_left heq⟩
    | _ => exact absurd (shape_eq ryu hv hw heq) nofun
  | .bool b => by
    intro hv w s t hw hs ht heq
    cases w with
    | bool c =>
      cases b <;> cases c
      · exact ⟨rfl, List.append_cancel_left heq⟩
      · exact absurd (List.cons.inj heq).1 (by decide)
      · exact absurd (List.cons.inj heq).1 (by decide)
      · exact ⟨rfl, List.append_cancel_left heq⟩
    | _ => exact absurd (shape_eq ryu hv hw heq) nofun
  | .number n => by
    intro hv w s t hw hs ht heq
    cases w with
    | number m =>
      obtain ⟨rfl, hst⟩ := number_reads ryu n hv m s t hw hs ht heq
      exact ⟨rfl, hst⟩
    | _ => exact absurd (shape_eq ryu hv hw heq) nofun
  | .string s₀ => by
    intro hv w s t hw hs ht heq
    cases w with
    | string s₁ =>
      obtain ⟨rfl, hst⟩ := string_reads s₀ trivial s₁ s t trivial trivial trivial heq
      exact ⟨rfl, hst⟩
    | _ => exact absurd (shape_eq ryu hv hw heq) nofun
  | .array vs => by
    intro hv w s t hw hs ht heq
    cases w with
    | array ws =>
      have hlist := listed_reads (by decide) (write_opens ryu) (items_read ryu vs)
        (follows_cons (b := 93) rfl) (follows_cons (b := 44) rfl)
      rw [write, write, items_eq, items_eq] at heq
      obtain ⟨rfl, hst⟩ := hlist ((plainItems_iff vs).mp hv) ws s t ((plainItems_iff ws).mp hw)
        trivial trivial (List.cons.inj heq).2
      exact ⟨rfl, hst⟩
    | _ => exact absurd (shape_eq ryu hv hw heq) nofun
  | .object fs => by
    intro hv w s t hw hs ht heq
    cases w with
    | object gs =>
      have hlist := listed_reads (by decide) (field_opens ryu) (fields_read ryu fs)
        (follows_cons (b := 125) rfl) (follows_cons (b := 44) rfl)
      rw [write, write, fields_eq, fields_eq] at heq
      obtain ⟨rfl, hst⟩ := hlist ((plainFields_iff fs).mp hv) gs s t ((plainFields_iff gs).mp hw)
        trivial trivial (List.cons.inj heq).2
      exact ⟨rfl, hst⟩
    | _ => exact absurd (shape_eq ryu hv hw heq) nofun
theorem items_read (ryu : UInt64 → List UInt8) :
    ∀ vs : List Value, ∀ v ∈ vs, Reads Plain Follows (write ryu) v
  | [] => fun _ h => absurd h List.not_mem_nil
  | v :: vs => List.forall_mem_cons.mpr ⟨write_reads ryu v, items_read ryu vs⟩
theorem fields_read (ryu : UInt64 → List UInt8) :
    ∀ fs : List (String × Value), ∀ f ∈ fs,
      Reads (fun f : String × Value => Plain f.2) Follows (field ryu) f
  | [] => fun _ h => absurd h List.not_mem_nil
  | f :: fs => List.forall_mem_cons.mpr ⟨field_reads ryu f, fields_read ryu fs⟩
theorem field_reads (ryu : UInt64 → List UInt8) :
    ∀ f : String × Value, Reads (fun f : String × Value => Plain f.2) Follows (field ryu) f
  | (k, v) => by
    have hpair := (string_reads k).append ((write_reads ryu v).after [58]) fun _ _ _ _ => trivial
    rw [field_eq]
    exact hpair.mono (fun _ h => ⟨trivial, h⟩) fun _ h => h
end

/-- **the writer is injective on plain values** -/
theorem write_injective (ryu : UInt64 → List UInt8) {v w : Value} (hv : Plain v) (hw : Plain w)
    (h : write ryu v = write ryu w) : v = w :=
  (write_reads ryu v).inj rfl hv hw h

end Syouyu.Json
