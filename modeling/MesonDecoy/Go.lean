import Mathlib.Data.List.Sort
import Mathlib.Logic.Function.Basic
import Mathlib.Algebra.Group.Int
import Mathlib.Algebra.Group.Nat.Basic

set_option autoImplicit false

/-!
# The Go runtime the decoy relies on

`internal/decoy/decoy.go` is modelled as a shallow embedding: each method of `decoy` becomes a
Lean function that takes the state it reads and returns the state it leaves, in `Except Panic`,
since the Go code aborts by `panic`: explicitly (`panic("BUG: ...")`) or through a failed type
assertion `x.([]*surbCtx)`, an index out of range or a nil pointer dereference. A panic is not
recovered anywhere in the decoy, so it ends the process and the state it leaves is irrelevant.

This file also holds `encoding/binary`'s big-endian coding of a `uint64`, which `makeSURBID`
and `OnPacket` use to put the token base and the random suffix into a SURB ID and read them back.

## Main definitions

* `MesonDecoy.Panic` — the ways a call aborts.
* `MesonDecoy.putUint64`, `MesonDecoy.bigEndianUint64` — `binary.BigEndian.PutUint64` and
  `binary.BigEndian.Uint64`.
* `MesonDecoy.constantTimeCompare` — `crypto/subtle.ConstantTimeCompare`.
* `MesonDecoy.toInt64`, `MesonDecoy.durationMillis` — `int64` conversion and the
  `time.Duration` product the worker schedules with.
* `MesonDecoy.Duration` — a `time.Duration`, with Go's wrapping `+`.

## Main results

* `MesonDecoy.bigEndianUint64_putUint64_append` — reading back the eight bytes `PutUint64`
  wrote gives the value written, whatever follows them.
-/

namespace MesonDecoy

/-- How a call of the decoy aborts. -/
inductive Panic
  /-- `panic(msg)` of the source, with its message. -/
  | bug (msg : String)
  /-- A single-result type assertion `v.([]*surbCtx)` on a value of another dynamic type. -/
  | typeAssertion
  /-- `s[i]` with `i ≥ len(s)`. -/
  | indexOutOfRange
  /-- A field read through a nil pointer. -/
  | nilDereference
deriving DecidableEq, Repr

/-! ### `Except` plumbing -/

section ExceptLemmas

variable {ε α β : Type}

@[simp] lemma ok_bind (a : α) (f : α → Except ε β) : (Except.ok a >>= f) = f a := rfl

@[simp] lemma error_bind (e : ε) (f : α → Except ε β) :
    (Except.error e >>= f) = Except.error e := rfl

@[simp] lemma pure_eq_ok (a : α) : (pure a : Except ε α) = Except.ok a := rfl

@[simp] lemma throw_eq_error (e : ε) : (throw e : Except ε α) = Except.error e := rfl

@[simp] lemma map_ok (f : α → β) (a : α) : (f <$> (Except.ok a : Except ε α)) = .ok (f a) := rfl

@[simp] lemma map_error (f : α → β) (e : ε) : (f <$> (Except.error e : Except ε α)) = .error e :=
  rfl

/-- A bind that succeeds had a first computation that succeeded. -/
lemma bind_eq_ok {x : Except ε α} {f : α → Except ε β} {b : β} (h : (x >>= f) = .ok b) :
    ∃ a, x = .ok a ∧ f a = .ok b := by
  cases x with
  | error e => cases h
  | ok a => exact ⟨a, rfl, h⟩

/-- A map that succeeds was over a computation that succeeded. -/
lemma map_eq_ok {x : Except ε α} {f : α → β} {b : β} (h : (f <$> x) = .ok b) :
    ∃ a, x = .ok a ∧ f a = b := by
  cases x with
  | error e => cases h
  | ok a => exact ⟨a, rfl, Except.ok.inj h⟩

end ExceptLemmas

/-- `s[i]` on a slice of pointers: panics out of range. -/
def index (s : List Nat) (i : Nat) : Except Panic Nat :=
  match s[i]? with
  | some p => .ok p
  | none => .error .indexOutOfRange

@[simp] lemma index_cons_zero (p : Nat) (s : List Nat) : index (p :: s) 0 = .ok p := by
  simp [index]

@[simp] lemma index_nil (i : Nat) : index [] i = .error .indexOutOfRange := rfl

/-- Following a pointer that may be nil: `p.field` panics when `p == nil`. -/
def deref (p : Option Nat) : Except Panic Nat :=
  match p with
  | some n => .ok n
  | none => .error .nilDereference

@[simp] lemma deref_some (n : Nat) : deref (some n) = .ok n := rfl

@[simp] lemma deref_none : deref none = .error .nilDereference := rfl

/-! ### `encoding/binary`, big endian -/

/-- The `w` low-order bytes of `x`, most significant first: byte `i` is `byte(x >> 8(w-1-i))`. -/
def beBytes : Nat → Nat → List UInt8
  | 0, _ => []
  | w + 1, x => beBytes w (x / 256) ++ [UInt8.ofNat x]

/-- A byte string read as a number, most significant byte first. -/
def beValue (b : List UInt8) : Nat :=
  b.foldl (fun acc x => acc * 256 + x.toNat) 0

@[simp] lemma length_beBytes (w x : Nat) : (beBytes w x).length = w := by
  induction w generalizing x with
  | zero => rfl
  | succ w ih => simp [beBytes, ih]

lemma beValue_append_byte (b : List UInt8) (x : UInt8) :
    beValue (b ++ [x]) = beValue b * 256 + x.toNat := by
  simp [beValue, List.foldl_append]

/-- **Round trip of the big-endian coding**: the `w` bytes of `x` read back give `x mod 256ʷ`.

**Proof sketch.** Induction on `w`: the last byte is `x mod 256`, the others code `x / 256`,
and `(x / 256 mod 256ʷ) · 256 + x mod 256 = x mod 256ʷ⁺¹` (`Nat.mod_mul`). -/
theorem beValue_beBytes (w x : Nat) : beValue (beBytes w x) = x % 256 ^ w := by
  induction w generalizing x with
  | zero => simp [beBytes, beValue, Nat.mod_one]
  | succ w ih =>
    have hbyte : (UInt8.ofNat x).toNat = x % 256 := rfl
    rw [beBytes, beValue_append_byte, ih, hbyte, Nat.pow_succ', Nat.mod_mul, Nat.mul_comm,
      Nat.add_comm]

lemma beValue_lt (b : List UInt8) : beValue b < 256 ^ b.length := by
  induction b using List.reverseRecOn with
  | nil => simp [beValue]
  | append_singleton l x ih =>
    have hx : x.toNat < 256 := x.toNat_lt_size
    rw [beValue_append_byte, List.length_append, List.length_singleton, Nat.pow_succ]
    calc beValue l * 256 + x.toNat < (beValue l + 1) * 256 := by omega
      _ ≤ 256 ^ l.length * 256 := Nat.mul_le_mul_right 256 ih

/-- **The other round trip**: a byte string is the big-endian coding of its value. -/
theorem beBytes_beValue (b : List UInt8) : beBytes b.length (beValue b) = b := by
  induction b using List.reverseRecOn with
  | nil => rfl
  | append_singleton l x ih =>
    have hx : x.toNat < 256 := x.toNat_lt_size
    have hdiv : (beValue l * 256 + x.toNat) / 256 = beValue l := by omega
    have hbyte : UInt8.ofNat (beValue l * 256 + x.toNat) = x := by
      apply UInt8.toNat.inj
      show (beValue l * 256 + x.toNat) % 256 = x.toNat
      omega
    rw [List.length_append, List.length_singleton, beBytes, beValue_append_byte, hdiv, ih, hbyte]

/-- `binary.BigEndian.PutUint64(b, v)`: the eight bytes it writes. -/
def putUint64 (v : UInt64) : List UInt8 := beBytes 8 v.toNat

@[simp] lemma length_putUint64 (v : UInt64) : (putUint64 v).length = 8 := length_beBytes 8 _

/-- `binary.BigEndian.Uint64(b)` on a slice of at least eight bytes: its first eight bytes. -/
def bigEndianUint64 (b : List UInt8) : UInt64 := UInt64.ofNat (beValue (b.take 8))

/-- Reading back the eight bytes `PutUint64` wrote gives the value written, whatever follows. -/
lemma bigEndianUint64_putUint64_append (v : UInt64) (rest : List UInt8) :
    bigEndianUint64 (putUint64 v ++ rest) = v := by
  have hv : v.toNat % 256 ^ 8 = v.toNat := Nat.mod_eq_of_lt v.toNat_lt_size
  have htake : (putUint64 v ++ rest).take 8 = putUint64 v := by
    simp [List.take_append_eq_append_take]
  apply UInt64.toNat.inj
  rw [bigEndianUint64, htake, putUint64, beValue_beBytes, hv]
  exact Nat.mod_eq_of_lt v.toNat_lt_size

/-- Eight bytes are the `PutUint64` coding of the value `Uint64` reads from them. -/
lemma putUint64_bigEndianUint64 {b : List UInt8} (h : b.length = 8) :
    putUint64 (bigEndianUint64 b) = b := by
  have hlt : beValue b < 256 ^ 8 := h ▸ beValue_lt b
  have hval : (bigEndianUint64 b).toNat = beValue b := by
    show beValue (b.take 8) % 2 ^ 64 = beValue b
    rw [List.take_of_length_le (by omega)]
    exact Nat.mod_eq_of_lt hlt
  rw [putUint64, hval, ← h, beBytes_beValue]

/-- `subtle.ConstantTimeCompare(x, y)`: `1` when the slices have the same length and bytes, `0`
otherwise. Only the result is modelled, not the constant-time evaluation. -/
def constantTimeCompare (x y : List UInt8) : Int := if x = y then 1 else 0

@[simp] lemma constantTimeCompare_eq_one {x y : List UInt8} :
    constantTimeCompare x y = 1 ↔ x = y := by
  unfold constantTimeCompare; split <;> simp_all

/-- `[]byte(s)`: the bytes of a string, which Go holds UTF-8 encoded. -/
def stringBytes (s : String) : List UInt8 := s.toUTF8.data.toList

/-! ### `time.Duration`: `int64` nanoseconds -/

/-- The `int64` with the same low 64 bits as `x`: Go's conversion of an integer to `int64`, and
the result of its wrapping `int64` arithmetic. -/
def toInt64 (x : Int) : Int := (x + 2 ^ 63) % 2 ^ 64 - 2 ^ 63

/-- `math.MaxInt64`. -/
def maxInt64 : Int := 2 ^ 63 - 1

/-- `time.Duration(n) * time.Millisecond` for a `uint64` `n`: the conversion keeps the 64 bits,
and the product wraps. -/
def durationMillis (n : UInt64) : Int := toInt64 (toInt64 n.toNat * 1000000)

/-- `time.Duration(n) * time.Millisecond` for an `int` `n`. -/
def intMillis (n : Int) : Int := toInt64 (toInt64 n * 1000000)

/-- `x` is the value of an `int64`. -/
def IsInt64 (x : Int) : Prop := -2 ^ 63 ≤ x ∧ x ≤ maxInt64

instance : DecidablePred IsInt64 := fun _ => inferInstanceAs (Decidable (_ ∧ _))

lemma isInt64_toInt64 (x : Int) : IsInt64 (toInt64 x) := by
  unfold IsInt64 maxInt64 toInt64; omega

/-- The `int64` arithmetic is exact exactly when the exact value is an `int64`. -/
lemma toInt64_eq_self_iff {x : Int} : toInt64 x = x ↔ IsInt64 x :=
  ⟨fun h => h ▸ isInt64_toInt64 x, fun h => by unfold IsInt64 maxInt64 at h; unfold toInt64; omega⟩

/-- A `time.Duration`: an `int64` count of nanoseconds. -/
@[ext] structure Duration where
  ns : Int
  isInt64 : IsInt64 ns

namespace Duration

/-- `time.Duration(x)` for an integer `x`: its low 64 bits. -/
def ofInt (x : Int) : Duration := ⟨toInt64 x, isInt64_toInt64 x⟩

/-- Go's `+` on durations, which wraps. -/
instance : Add Duration := ⟨fun a b => ofInt (a.ns + b.ns)⟩

/-- Durations compare as the integers they hold. -/
instance : LinearOrder Duration := LinearOrder.lift' ns fun _ _ => Duration.ext

instance : Inhabited Duration := ⟨ofInt 0⟩

@[simp] lemma ofInt_ns (x : Int) : (ofInt x).ns = toInt64 x := rfl

@[simp] lemma add_ns (a b : Duration) : (a + b).ns = toInt64 (a.ns + b.ns) := rfl

lemma lt_iff (a b : Duration) : a < b ↔ a.ns < b.ns := Iff.rfl

end Duration

end MesonDecoy
