import Mathlib.Algebra.GroupWithZero.Nat
import Mathlib.Data.Fin.Basic
import Mathlib.Data.List.Basic
import Mathlib.Order.Lattice

/-! Texts of UTF-16 code units and their UTF-8 length. A lone surrogate is encoded as U+FFFD, so a text cut inside a
pair can be longer than the pair. -/

namespace AutoHarness.Foundation.Utf16

abbrev CodeUnit := Fin 0x10000

instance neZero_codeUnits : NeZero 0x10000 := ⟨by decide⟩

abbrev Text := List CodeUnit

/-- A text of characters below U+10000. -/
def ofString (s : String) : Text := s.toList.map fun c => Fin.ofNat 0x10000 c.toNat

def isHigh (c : CodeUnit) : Bool := 0xD800 ≤ c.val && c.val < 0xDC00

def isLow (c : CodeUnit) : Bool := 0xDC00 ≤ c.val && c.val < 0xE000

/-- After a high surrogate a low one completes its three bytes to four. -/
def unitBytes (afterHigh : Bool) (c : CodeUnit) : ℕ :=
  if afterHigh && isLow c then 1 else if c.val < 0x80 then 1 else if c.val < 0x800 then 2 else 3

def bytesFrom : Bool → Text → ℕ
  | _, [] => 0
  | afterHigh, c :: rest => unitBytes afterHigh c + bytesFrom (isHigh c) rest

/-- `Buffer.byteLength(text, "utf8")`, and the length of what a `TextEncoder` gives. -/
def bytes (s : Text) : ℕ := bytesFrom false s

@[simp] theorem bytes_nil : bytes [] = 0 := rfl

variable {a b s : Text} {afterHigh : Bool} {c : CodeUnit}

theorem unitBytes_pos : 1 ≤ unitBytes afterHigh c := by
  unfold unitBytes
  repeat' split
  all_goals omega

theorem unitBytes_true_le : unitBytes true c ≤ unitBytes false c := by
  by_cases h : isLow c
  · have hone : unitBytes true c = 1 := by simp [unitBytes, h]
    rw [hone]
    exact unitBytes_pos
  · simp [unitBytes, h]

/-- Whether a text leaves an unpaired high surrogate at its end. -/
def endsHigh (afterHigh : Bool) : Text → Bool
  | [] => afterHigh
  | c :: rest => endsHigh (isHigh c) rest

theorem bytesFrom_append : bytesFrom afterHigh (a ++ b) = bytesFrom afterHigh a + bytesFrom (endsHigh afterHigh a) b := by
  induction a generalizing afterHigh with
  | nil => simp [bytesFrom, endsHigh]
  | cons c rest ih => simp [bytesFrom, endsHigh, ih, Nat.add_assoc]

theorem bytesFrom_le_bytes : bytesFrom afterHigh s ≤ bytes s := by
  cases s with
  | nil => exact Nat.le_refl _
  | cons c rest =>
    cases afterHigh with
    | false => exact Nat.le_refl _
    | true => exact Nat.add_le_add_right unitBytes_true_le _

theorem bytes_append_le : bytes (a ++ b) ≤ bytes a + bytes b := by
  unfold bytes
  rw [bytesFrom_append]
  exact Nat.add_le_add_left bytesFrom_le_bytes _

theorem bytes_le_append : bytes a ≤ bytes (a ++ b) := by
  unfold bytes
  rw [bytesFrom_append]
  omega

theorem bytes_append (h : b.head?.all fun c => !isLow c) : bytes (a ++ b) = bytes a + bytes b := by
  unfold bytes
  rw [bytesFrom_append]
  cases b with
  | nil => rfl
  | cons c rest =>
    have hlow : isLow c = false := by simpa using h
    simp [bytesFrom, unitBytes, hlow]

theorem length_le_bytes : s.length ≤ bytes s := by
  have hfrom : ∀ afterHigh, s.length ≤ bytesFrom afterHigh s := by
    induction s with
    | nil => exact fun _ => Nat.le_refl _
    | cons c rest ih =>
      intro afterHigh
      have hc : 1 ≤ unitBytes afterHigh c := unitBytes_pos
      have hrest := ih (isHigh c)
      simp only [List.length_cons, bytesFrom]
      omega
  exact hfrom false

end AutoHarness.Foundation.Utf16
