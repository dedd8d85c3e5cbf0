import Mathlib.Algebra.Ring.Nat
import Mathlib.Data.List.TakeWhile

/-! # C character data

A text is the list of bytes before the terminator. `CString` is a text that can
be pointed to, `CField n` one that is stored, terminated, in a `char[n]`. Memory
that is not known to be terminated stays a plain byte list and is read through
`cstr`, which stops at the first zero byte.
-/

namespace EzIot.CText

abbrev Bytes := List UInt8

/-- The bytes of an ASCII literal. -/
def ascii (s : String) : Bytes := s.toList.map fun c => c.toNat.toUInt8

/-- The text a C reader sees at an address: the bytes before the first zero. -/
def cstr (mem : Bytes) : Bytes := mem.takeWhile (· != 0)

theorem zero_not_mem_cstr (mem : Bytes) : (0 : UInt8) ∉ cstr mem := by
  intro h
  have hne := List.mem_takeWhile_imp h
  simp at hne

theorem cstr_of_no_zero {mem : Bytes} (h : (0 : UInt8) ∉ mem) : cstr mem = mem := by
  unfold cstr
  rw [List.takeWhile_eq_self_iff]
  intro b hb
  have hne : b ≠ 0 := fun hz => h (hz ▸ hb)
  simpa using hne

theorem cstr_append_of_no_zero {pre : Bytes} (h : (0 : UInt8) ∉ pre) (rest : Bytes) :
    cstr (pre ++ rest) = pre ++ cstr rest := by
  unfold cstr
  rw [List.takeWhile_append_of_pos]
  intro b hb
  have hne : b ≠ 0 := fun hz => h (hz ▸ hb)
  simpa using hne

/-- A zero byte in the first part hides everything after it. -/
theorem cstr_append_of_zero {pre : Bytes} (h : (0 : UInt8) ∈ pre) (rest : Bytes) :
    cstr (pre ++ rest) = cstr pre := by
  induction pre with
  | nil => simp at h
  | cons b pre ih =>
      by_cases hb : b = 0
      · simp [cstr, hb]
      · have hpre : (0 : UInt8) ∈ pre := by
          rcases List.mem_cons.mp h with hz | hz
          · exact absurd hz.symm hb
          · exact hz
        have hrec := ih hpre
        unfold cstr at hrec ⊢
        rw [List.cons_append, List.takeWhile_cons_of_pos (by simpa using hb), hrec,
          List.takeWhile_cons_of_pos (by simpa using hb)]

/-! ## Decimal numbers -/

def isDigit (b : UInt8) : Bool := 48 ≤ b && b ≤ 57

/-- `isspace` of the C locale. -/
def isSpace (b : UInt8) : Bool := b == 32 || (9 ≤ b && b ≤ 13)

def digitsValue (ds : Bytes) : Nat := ds.foldl (fun n b => 10 * n + (b.toNat - 48)) 0

/-- A leading sign: whether it is a minus, and what follows it. -/
def takeSign : Bytes → Bool × Bytes
  | [] => (false, [])
  | b :: t => if b = 45 then (true, t) else if b = 43 then (false, t) else (false, b :: t)

def atoi (t : Bytes) : Int :=
  let (neg, u) := takeSign (t.dropWhile isSpace)
  let n : Int := digitsValue (u.takeWhile isDigit)
  if neg then -n else n

/-! ## Terminated texts -/

/-- A text somebody points to: any length, no embedded terminator. -/
structure CString where
  val : Bytes
  noNul : (0 : UInt8) ∉ val
deriving DecidableEq

namespace CString

theorem ext {s t : CString} (h : s.val = t.val) : s = t := by
  cases s
  cases t
  cases h
  rfl

def length (s : CString) : Nat := s.val.length

/-- The text that starts at an address. -/
def ofMem (mem : Bytes) : CString := ⟨cstr mem, zero_not_mem_cstr mem⟩

/-- A literal of the source. -/
def lit (s : String) : CString := .ofMem (ascii s)

end CString

/-- The content of a zero-terminated `char[n]`. -/
structure CField (n : Nat) extends CString where
  fits : val.length < n
deriving DecidableEq

namespace CField

variable {n : Nat}

theorem ext {s t : CField n} (h : s.toCString = t.toCString) : s = t := by
  cases s
  cases t
  cases h
  rfl

/-- `strncpy(dst, src, sizeof(dst) - 1)` into a zeroed `dst`: at most `n` bytes
are copied into `char[n + 1]` and the last one stays zero. -/
def strncpy (src : CString) : CField (n + 1) where
  val := src.val.take n
  noNul := fun h => src.noNul (List.mem_of_mem_take h)
  fits := by
    rw [List.length_take]
    omega

theorem strncpy_of_fits {src : CString} (h : src.length ≤ n) :
    (strncpy src : CField (n + 1)).toCString = src :=
  CString.ext (List.take_of_length_le h)

/-- A stored text equals a searched one that fits exactly when it is its copy. -/
theorem toCString_eq_iff {src : CString} (h : src.length ≤ n) (s : CField (n + 1)) :
    s.toCString = src ↔ s = strncpy src := by
  constructor
  · intro heq
    exact ext (heq.trans (strncpy_of_fits h).symm)
  · intro heq
    rw [heq, strncpy_of_fits h]

theorem strncpy_toCString (s : CField (n + 1)) : strncpy s.toCString = s :=
  ext (strncpy_of_fits (Nat.le_of_lt_succ s.fits))

end CField

end EzIot.CText
