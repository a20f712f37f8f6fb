import Mathlib.Data.List.Basic
import Mathlib.Algebra.Ring.Int.Defs

/-!
Values shared by every part of the model: Go byte strings, the upper-case hex rendering that
`HexBytes.String` produces, the ways a Go call can end, and the clipping arithmetic CometBFT uses
on `int64` priorities.
-/

namespace CometMock

/--
Go `[]byte` and `string` values. A Go string is an immutable byte sequence, and `[]byte(s)`
and `string(b)` only copy it, so both are modelled by the same type.
-/
abbrev Bytes := List UInt8

/-- ASCII code of the upper-case hex digit for `d < 16`. -/
def hexDigit (d : UInt8) : UInt8 :=
  if d < 10 then 48 + d else 55 + d

/-- Go's `bytes.Compare(a, b) < 0`, and `<` on strings: the lexicographic order of unsigned bytes. -/
def bytesLt : Bytes → Bytes → Bool
  | [], [] => false
  | [], _ :: _ => true
  | _ :: _, [] => false
  | a :: as, b :: bs => a.toNat < b.toNat || (a = b && bytesLt as bs)

@[simp]
theorem bytesLt_self : ∀ a : Bytes, bytesLt a a = false
  | [] => rfl
  | x :: xs => by simp [bytesLt, bytesLt_self xs]

theorem bytesLt_trans : ∀ {a b c : Bytes}, bytesLt a b → bytesLt b c → bytesLt a c
  | [], [], _, h, _ => nomatch h
  | _, _ :: _, [], _, h => by cases h
  | [], _ :: _, _ :: _, _, _ => rfl
  | _ :: _, [], _, h, _ => nomatch h
  | x :: xs, y :: ys, z :: zs, h₁, h₂ => by
    simp only [bytesLt, Bool.or_eq_true, decide_eq_true_eq, Bool.and_eq_true] at h₁ h₂ ⊢
    rcases h₁ with h₁ | ⟨rfl, h₁⟩ <;> rcases h₂ with h₂ | ⟨rfl, h₂⟩
    · exact .inl (Nat.lt_trans h₁ h₂)
    · exact .inl h₁
    · exact .inl h₂
    · exact .inr ⟨rfl, bytesLt_trans h₁ h₂⟩

theorem bytesLt_trichotomy : ∀ a b : Bytes, a = b ∨ bytesLt a b ∨ bytesLt b a
  | [], [] => .inl rfl
  | [], _ :: _ => .inr (.inl rfl)
  | _ :: _, [] => .inr (.inr rfl)
  | x :: xs, y :: ys => by
    simp only [bytesLt, Bool.or_eq_true, decide_eq_true_eq, Bool.and_eq_true, List.cons.injEq]
    rcases Nat.lt_trichotomy x.toNat y.toNat with h | h | h
    · exact .inr (.inl (.inl h))
    · obtain rfl := UInt8.toNat.inj h
      rcases bytesLt_trichotomy xs ys with h' | h' | h'
      · exact .inl ⟨rfl, h'⟩
      · exact .inr (.inl (.inr ⟨rfl, h'⟩))
      · exact .inr (.inr (.inr ⟨rfl, h'⟩))
    · exact .inr (.inr (.inl h))

theorem bytesLt_asymm {a b : Bytes} (h : bytesLt a b) : bytesLt b a = false := by
  cases h' : bytesLt b a
  · rfl
  · have := bytesLt_trans h h'
    rw [bytesLt_self] at this
    cases this

/--
`HexBytes.String`: `strings.ToUpper(hex.EncodeToString(bz))`, as the bytes of the resulting
string. Every address string in CometMock (`Address.String()`, the keys of the signing-status
and priv-validator maps, `ValidatorAddress` of a backend) is of this form.
-/
def hexString (bz : Bytes) : Bytes :=
  bz.flatMap fun b => [hexDigit (b / 16), hexDigit (b % 16)]

/-- The string whose bytes are `bz`, for the ASCII strings (hex addresses) the model keeps as
bytes; `fmt`'s `%s` prints them so. -/
def bytesToString (bz : Bytes) : String :=
  String.mk (bz.map fun b => Char.ofNat b.toNat)

@[simp]
theorem hexString_nil : hexString [] = [] := rfl

@[simp]
theorem hexString_cons (b : UInt8) (bz : Bytes) :
    hexString (b :: bz) = hexDigit (b / 16) :: hexDigit (b % 16) :: hexString bz := rfl

@[simp]
theorem length_hexString (bz : Bytes) : (hexString bz).length = 2 * bz.length := by
  induction bz with
  | nil => rfl
  | cons b bz ih => simp [ih]; omega

theorem hexString_ne_self {bz : Bytes} (h : bz ≠ []) : hexString bz ≠ bz := by
  intro heq
  have hlen := congrArg List.length heq
  have hpos : 0 < bz.length := List.length_pos.mpr h
  simp only [length_hexString] at hlen
  omega

/--
How a Go call that does not return normally ends: it returns an `error` value to its caller,
it panics (no code in the repository recovers, so the process stops), or the goroutine blocks
forever on a mutex that is already held.
-/
inductive Failure where
  | error (msg : String)
  | panic (msg : String)
  | blocked
  deriving Repr, DecidableEq

@[simp]
theorem except_bind_ok {ε α β : Type} (a : α) (f : α → Except ε β) :
    (Except.ok a >>= f) = f a := rfl

@[simp]
theorem except_bind_error {ε α β : Type} (e : ε) (f : α → Except ε β) :
    (Except.error e >>= f) = Except.error e := rfl

@[simp]
theorem ite_error_eq_ok {ε α : Type} {c : Prop} [Decidable c] {e : ε} {x : Except ε α} {a : α} :
    (if c then .error e else x) = .ok a ↔ ¬c ∧ x = .ok a := by
  split <;> simp_all

theorem except_bind_eq_ok {ε α β : Type} {x : Except ε α} {f : α → Except ε β} {b : β} :
    (x >>= f) = .ok b ↔ ∃ a, x = .ok a ∧ f a = .ok b := by
  cases x <;> simp

theorem mapM_eq_ok_map {ε α β γ : Type} {f : α → Except ε β} {g : α → γ} {h : β → γ}
    (hf : ∀ a b, f a = .ok b → h b = g a) :
    ∀ {l : List α} {bs : List β}, l.mapM f = .ok bs → bs.map h = l.map g
  | [], _, hl => by cases hl; rfl
  | a :: l, _, hl => by
    simp only [List.mapM_cons, except_bind_eq_ok] at hl
    obtain ⟨b, hb, bs, hbs, hl⟩ := hl
    cases hl
    simp [hf a b hb, mapM_eq_ok_map hf hbs]

theorem mapM_eq_ok_of_eq_ok {ε α β : Type} {f : α → Except ε β} {g : α → β} :
    ∀ {l : List α}, (∀ a ∈ l, f a = .ok (g a)) → l.mapM f = .ok (l.map g)
  | [], _ => rfl
  | a :: l, h => by
    rw [List.mapM_cons, h a (List.mem_cons_self a l),
      mapM_eq_ok_of_eq_ok fun b hb => h b (List.mem_cons_of_mem a hb)]
    rfl

/-- `math.MaxInt64`. -/
def maxInt64 : Int := 9223372036854775807

/-- `math.MinInt64`. -/
def minInt64 : Int := -9223372036854775808

/-- The value CometBFT's `safeAddClip`/`safeSubClip` return for an exact result `x`. -/
def clip (x : Int) : Int :=
  max minInt64 (min maxInt64 x)

/-- CometBFT's `safeAddClip`: `a + b`, clipped to the `int64` range instead of wrapping. -/
def safeAddClip (a b : Int) : Int :=
  clip (a + b)

/-- CometBFT's `safeSubClip`: `a - b`, clipped to the `int64` range instead of wrapping. -/
def safeSubClip (a b : Int) : Int :=
  clip (a - b)

end CometMock
