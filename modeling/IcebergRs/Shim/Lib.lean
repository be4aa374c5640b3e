import IcebergRs.Support.Outcome
import IcebergRs.Support.Utf8
import Mathlib.Algebra.Ring.Int.Defs

/-! What every entry point of the C ABI shares: strings coming in as `char*`, a status
going out, and the text of the last error. A null handle has no state to speak about, so
the entry points take the state that a live handle points to. -/
namespace IcebergRs

/-- The memory behind a `char*`; `none` is the null pointer. -/
abbrev CString := Option (List UInt8)

/-- A text with its terminating zero. -/
def cName (s : String) : CString := some (utf8 s ++ [0])

/-- The bytes up to the terminating zero, as text. -/
def cstr (p : CString) (what : String) : Except String String :=
  match p with
  | none => .error s!"{what}: null pointer"
  | some bytes =>
    match fromUtf8 (bytes.takeWhile (· ≠ 0)) with
    | some s => .ok s
    | none => .error s!"{what}: not valid UTF-8"

/-- The same for an optional text, where a null pointer is none. -/
def cstrOpt (p : CString) (what : String) : Except String (Option String) :=
  match p with
  | none => .ok none
  | some bytes =>
    match fromUtf8 (bytes.takeWhile (· ≠ 0)) with
    | some s => .ok (some s)
    | none => .error s!"{what}: not valid UTF-8"

def mapErr {α : Type} (what : String) (x : Except String α) : Except String α :=
  x.mapError fun e => s!"{what}: {e}"

theorem mapErr_eq_ok {α : Type} {what : String} {x : Except String α} {a : α} :
    mapErr what x = .ok a ↔ x = .ok a := by
  cases x <;> simp [mapErr, Except.mapError]

/-- The text that `set_err` keeps. -/
def setErr (msg : String) : String :=
  if msg.toList.contains (Char.ofNat 0) then "error (embedded NUL)" else msg

/-- `out_string`, which fails on a text with a zero inside. -/
def outString (s : String) : Except String String :=
  if s.toList.contains (Char.ofNat 0) then .error "result string contained an embedded NUL"
  else .ok s

theorem outString_eq_ok {s t : String} : outString s = .ok t ↔ NulFree s ∧ s = t := by
  unfold outString NulFree
  split <;> simp_all

theorem nulFree_of_outString {α : Type} {x : Except String α} {f : α → String} {s : String}
    (h : (x >>= fun a => outString (f a)) = .ok s) : NulFree s := by
  obtain ⟨_, -, hs⟩ := except_bind_eq_ok.mp h
  obtain ⟨hfree, rfl⟩ := outString_eq_ok.mp hs
  exact hfree

/-- What a call hands back, the state it leaves behind, and the error it set, if any. -/
structure Reply (σ ρ : Type) where
  ret : ρ
  state : σ
  lastError : Option String

namespace Reply
variable {σ ρ : Type}

/-- What `ib_last_error` gives after the call, by what it gave before. -/
def ibLastError (r : Reply σ ρ) (before : String) : String := r.lastError.getD before

def done (s : σ) (ret : ρ) : Reply σ ρ := ⟨ret, s, none⟩

def fail (s : σ) (ret : ρ) (msg : String) : Reply σ ρ := ⟨ret, s, some (setErr msg)⟩

/-- The reply of a call that returns a pointer, null on failure. -/
def pointer {α : Type} (s : σ) : Except String α → Reply σ (Option α)
  | .ok a => done s (some a)
  | .error m => fail s none m

/-- The reply of a call that returns 0, or -1 on failure. -/
def status (s : σ) : Except String Unit → Reply σ ℤ
  | .ok () => done s 0
  | .error m => fail s (-1) m

/-- The reply of a call that returns 1 or 0, or -1 on failure. -/
def flag (s : σ) : Except String Bool → Reply σ ℤ
  | .ok b => done s (if b then 1 else 0)
  | .error m => fail s (-1) m

@[simp] theorem done_ret (s : σ) (ret : ρ) : (done s ret).ret = ret := rfl
@[simp] theorem done_state (s : σ) (ret : ρ) : (done s ret).state = s := rfl
@[simp] theorem fail_ret (s : σ) (ret : ρ) (m : String) : (fail s ret m).ret = ret := rfl
@[simp] theorem fail_state (s : σ) (ret : ρ) (m : String) : (fail s ret m).state = s := rfl

theorem pointer_ret {α : Type} {s : σ} {x : Except String α} {a : α} :
    (pointer s x).ret = some a ↔ x = .ok a := by
  cases x <;> simp [pointer]

end Reply

theorem cstr_cName_eq (s what : String) : cstr (cName s) what = .ok (uptoNul s) := by
  simp only [cstr, cName, takeWhile_utf8, fromUtf8_utf8]

theorem cstrOpt_cName_eq (s what : String) : cstrOpt (cName s) what = .ok (some (uptoNul s)) := by
  simp only [cstrOpt, cName, takeWhile_utf8, fromUtf8_utf8]

/-- A C string without a zero byte inside is read back as it was written. -/
theorem cstr_cName {s : String} (h : (0 : UInt8) ∉ utf8 s) (what : String) :
    cstr (cName s) what = .ok s := by
  rw [cstr_cName_eq, uptoNul_eq h]

end IcebergRs
