import Mathlib.Algebra.Order.Ring.Int
import Mathlib.Data.List.Sort
import Mathlib.Data.List.TakeWhile

/-!
# Byte strings and decimal text

The parts of `std::string`, `ostringstream` and `istringstream` that text-building
programs use, over lists of bytes: decimal printing, decimal scanning with the clamping
of the standard library, the C-string view that stops at the first NUL, and the
find-then-replace step of placeholder substitution.

* `scanSigned_decimal`, `scanUnsigned_decimal` -- a number in range is scanned as it was printed;
* `decimal_eq_decimalNat` -- texts tell the numbers;
* `find_spec`, `replace_append` -- where a pattern is found, and what replacing it leaves.
-/

/-- A byte string (`std::string`). -/
abbrev Bytes := List UInt8

namespace ByteText

/-- The byte of an ASCII character. -/
def charByte (c : Char) : UInt8 := UInt8.ofNat c.toNat

/-- `ostringstream << n` for a non-negative integer. -/
def decimalNat (n : Nat) : Bytes := (Nat.toDigits 10 n).map charByte

/-- `ostringstream << z` for an integer of any width. -/
def decimal (z : Int) : Bytes :=
  if z < 0 then 45 :: decimalNat z.natAbs else decimalNat z.natAbs

/-- The decimal digits. -/
def isDigit (b : UInt8) : Bool := 48 ≤ b && b ≤ 57

/-- The characters `istringstream` skips before a number. -/
def isSpace (b : UInt8) : Bool := b == 32 || (9 ≤ b && b ≤ 13)

/-- The number a run of digits denotes. -/
def digitsValue (digits : Bytes) : Nat :=
  digits.foldl (fun n b => 10 * n + (b.toNat - 48)) 0

/-- An optional sign in front of a number, and what follows it. -/
def scanSign : Bytes → Bool × Bytes
  | 45 :: rest => (true, rest)
  | 43 :: rest => (false, rest)
  | text => (false, text)

/-- `istringstream >> v` into a signed integer of `width` bits that was 0 before: no
digits leave 0, a number out of range is clamped to the nearer end. -/
def scanSigned (width : Nat) (text : Bytes) : Int :=
  let (negative, rest) := scanSign (text.dropWhile isSpace)
  let n : Int := digitsValue (rest.takeWhile isDigit)
  if negative then max (-n) (-2 ^ (width - 1)) else min n (2 ^ (width - 1) - 1)

/-- `istringstream >> v` into an unsigned integer of `width` bits: a minus sign negates
modulo `2 ^ width`, a number out of range becomes the largest value. -/
def scanUnsigned (width : Nat) (text : Bytes) : Int :=
  let (negative, rest) := scanSign (text.dropWhile isSpace)
  let n : Int := digitsValue (rest.takeWhile isDigit)
  if 2 ^ width ≤ n then 2 ^ width - 1
  else if negative then (-n) % 2 ^ width
  else n

/-- What `std::string(const char*)` reads from a buffer: the bytes before the first NUL. -/
def cstr (buffer : Bytes) : Bytes := buffer.takeWhile (· ≠ 0)

/-- `std::string::find`: the first position at which `pattern` occurs. -/
def find (pattern : Bytes) : Bytes → Option Nat
  | [] => if pattern.isEmpty then some 0 else none
  | b :: rest =>
      if pattern.isPrefixOf (b :: rest) then some 0
      else (find pattern rest).map (· + 1)

/-- `std::string::replace(pos, len, by)`. -/
def replace (text : Bytes) (pos len : Nat) (repl : Bytes) : Bytes :=
  text.take pos ++ repl ++ text.drop (pos + len)

/-! ## Decimal text determines the number -/

/-- Digits have different bytes. -/
theorem charByte_inj_of_isDigit {c d : Char} (hc : c.isDigit) (hd : d.isDigit)
    (h : charByte c = charByte d) : c = d := by
  have range : ∀ e : Char, e.isDigit → e.toNat < 256 := by
    intro e he
    simp only [Char.isDigit, Bool.and_eq_true, decide_eq_true_eq] at he
    have hle : e.val.toNat ≤ 57 := UInt32.le_iff_toNat_le.mp he.2
    have : e.toNat = e.val.toNat := rfl
    omega
  have hnat : c.toNat = d.toNat := by
    have hbyte := congrArg UInt8.toNat h
    simp only [charByte, UInt8.toNat_ofNat'] at hbyte
    have hc' := range c hc
    have hd' := range d hd
    omega
  exact Char.ext (UInt32.toNat_inj.mp hnat)

/-- Mapping by a function that is injective on the members of two lists reflects
equality of the lists. -/
theorem map_inj_on {α β : Type*} {f : α → β} {xs ys : List α}
    (hf : ∀ x ∈ xs, ∀ y ∈ ys, f x = f y → x = y) (h : xs.map f = ys.map f) : xs = ys := by
  induction xs generalizing ys with
  | nil => simpa using h.symm
  | cons x xs ih =>
      cases ys with
      | nil => simp at h
      | cons y ys =>
          simp only [List.map_cons, List.cons.injEq] at h
          have hhead := hf x (by simp) y (by simp) h.1
          have htail := ih (fun a ha b hb => hf a (by simp [ha]) b (by simp [hb])) h.2
          rw [hhead, htail]

/-- Different numbers print differently. -/
theorem decimalNat_inj {m n : Nat} (h : decimalNat m = decimalNat n) : m = n := by
  have hdigits : Nat.toDigits 10 m = Nat.toDigits 10 n :=
    map_inj_on (fun c hc d hd => charByte_inj_of_isDigit
      (Nat.isDigit_of_mem_toDigits (by omega) (by omega) hc)
      (Nat.isDigit_of_mem_toDigits (by omega) (by omega) hd)) h
  have hvalue := congrArg (fun cs => Nat.ofDigitChars 10 cs 0) hdigits
  simpa only [Nat.ofDigitChars_ten_toDigits] using hvalue

/-- A non-negative integer prints like the natural number it is. -/
theorem decimal_natCast (n : Nat) : decimal (n : Int) = decimalNat n := by
  simp [decimal]

/-- Only a natural number prints like one. -/
theorem decimal_eq_decimalNat {z : Int} {n : Nat} (h : decimal z = decimalNat n) : z = n := by
  by_cases hneg : z < 0
  · -- The minus sign is no digit.
    have hmem : (45 : UInt8) ∈ decimalNat n := by
      rw [← h, decimal, if_pos hneg]
      exact List.mem_cons_self
    obtain ⟨c, hc, hbyte⟩ := List.mem_map.mp hmem
    have hdigit : c.isDigit = true := Nat.isDigit_of_mem_toDigits (by omega) (by omega) hc
    simp only [Char.isDigit, Bool.and_eq_true, decide_eq_true_eq] at hdigit
    have hle : c.val.toNat ≤ 57 := UInt32.le_iff_toNat_le.mp hdigit.2
    have hge : 48 ≤ c.val.toNat := UInt32.le_iff_toNat_le.mp hdigit.1
    have hval : c.toNat = c.val.toNat := rfl
    have hnat := congrArg UInt8.toNat hbyte
    simp only [charByte, UInt8.toNat_ofNat'] at hnat
    have hdash : (45 : UInt8).toNat = 45 := rfl
    omega
  · rw [decimal, if_neg hneg] at h
    have habs := decimalNat_inj h
    omega

/-! ## Scanning reads back what was printed -/

/-- The byte of a digit is a digit. -/
theorem isDigit_charByte {c : Char} (hc : c.isDigit) :
    isDigit (charByte c) = true ∧ (charByte c).toNat = c.toNat := by
  simp only [Char.isDigit, Bool.and_eq_true, decide_eq_true_eq] at hc
  have hle : c.toNat ≤ 57 := UInt32.le_iff_toNat_le.mp hc.2
  have hge : 48 ≤ c.toNat := UInt32.le_iff_toNat_le.mp hc.1
  have hbyte : (charByte c).toNat = c.toNat := by
    simp only [charByte, UInt8.toNat_ofNat']
    omega
  have hlow : (48 : UInt8) ≤ charByte c := UInt8.le_iff_toNat_le.mpr (hbyte ▸ hge)
  have hhigh : charByte c ≤ 57 := UInt8.le_iff_toNat_le.mpr (hbyte ▸ hle)
  exact ⟨by simp [isDigit, hlow, hhigh], hbyte⟩

/-- A natural number is printed in digits, -/
theorem isDigit_of_mem_decimalNat {n : Nat} {b : UInt8} (h : b ∈ decimalNat n) :
    isDigit b = true := by
  obtain ⟨c, hc, rfl⟩ := List.mem_map.mp h
  exact (isDigit_charByte (Nat.isDigit_of_mem_toDigits (by omega) (by omega) hc)).1

theorem decimalNat_ne_nil (n : Nat) : decimalNat n ≠ [] := by
  simp [decimalNat, Nat.toDigits_ne_nil]

/-- and is their value. -/
theorem digitsValue_decimalNat (n : Nat) : digitsValue (decimalNat n) = n := by
  have hfold : ∀ (cs : List Char) (init : Nat), (∀ c ∈ cs, c.isDigit = true) →
      (cs.map charByte).foldl (fun n b => 10 * n + (b.toNat - 48)) init =
        Nat.ofDigitChars 10 cs init := by
    intro cs init hcs
    induction cs generalizing init with
    | nil => simp
    | cons c cs ih =>
        have hc := (isDigit_charByte (hcs c List.mem_cons_self)).2
        rw [List.map_cons, List.foldl_cons, Nat.ofDigitChars_cons, hc]
        exact ih _ fun d hd => hcs d (List.mem_cons_of_mem c hd)
  have hdigits := hfold (Nat.toDigits 10 n) 0 fun c hc =>
    Nat.isDigit_of_mem_toDigits (by omega) (by omega) hc
  rw [digitsValue, decimalNat, hdigits, Nat.ofDigitChars_ten_toDigits]

/-- A digit is neither a space nor a sign nor a NUL byte. -/
theorem digit_ne {b : UInt8} (h : isDigit b = true) :
    isSpace b = false ∧ b ≠ 45 ∧ b ≠ 43 ∧ b ≠ 0 := by
  simp only [isDigit, Bool.and_eq_true, decide_eq_true_eq] at h
  have hge : 48 ≤ b.toNat := UInt8.le_iff_toNat_le.mp h.1
  have hne : ∀ c : UInt8, c.toNat < 48 → b ≠ c := by
    intro c hc heq
    subst heq
    omega
  refine ⟨?_, hne 45 (by decide), hne 43 (by decide), hne 0 (by decide)⟩
  have hspace := hne 32 (by decide)
  have hhigh : ¬ b ≤ 13 := by
    intro hle
    have hnat : b.toNat ≤ 13 := UInt8.le_iff_toNat_le.mp hle
    omega
  simp [isSpace, hspace, hhigh]

/-- A scan takes all of them, and finds no sign. -/
theorem scan_decimalNat (n : Nat) :
    (decimalNat n).takeWhile isDigit = decimalNat n ∧
      scanSign ((decimalNat n).dropWhile isSpace) = (false, decimalNat n) := by
  refine ⟨List.takeWhile_eq_self_iff.mpr fun b hb => isDigit_of_mem_decimalNat hb, ?_⟩
  cases htext : decimalNat n with
  | nil => exact absurd htext (decimalNat_ne_nil n)
  | cons b rest =>
      obtain ⟨hspace, hminus, hplus, _⟩ :=
        digit_ne (isDigit_of_mem_decimalNat (htext ▸ List.mem_cons_self : b ∈ decimalNat n))
      rw [List.dropWhile_cons_of_neg (by simp [hspace])]
      unfold scanSign
      split <;> simp_all

/-- The sign and the digits of a printed integer. -/
theorem scan_decimal (z : Int) :
    scanSign ((decimal z).dropWhile isSpace) = (decide (z < 0), decimalNat z.natAbs) := by
  unfold decimal
  split
  · rename_i hneg
    simp [hneg, isSpace, scanSign]
  · rename_i hpos
    rw [(scan_decimalNat z.natAbs).2]
    simp [hpos]

/-- A signed number in range is scanned as it was printed, -/
theorem scanSigned_decimal {width : Nat} {z : Int}
    (hlow : -2 ^ (width - 1) ≤ z) (hhigh : z < 2 ^ (width - 1)) :
    scanSigned width (decimal z) = z := by
  have hdigits := (scan_decimalNat z.natAbs).1
  have hvalue := digitsValue_decimalNat z.natAbs
  simp only [scanSigned, scan_decimal, hdigits, hvalue]
  by_cases hneg : z < 0
  · simp only [hneg, decide_true, if_true]
    omega
  · simp only [hneg, decide_false, Bool.false_eq_true, if_false]
    omega

/-- and an unsigned one is. -/
theorem scanUnsigned_decimal {width : Nat} {z : Int} (hlow : 0 ≤ z) (hhigh : z < 2 ^ width) :
    scanUnsigned width (decimal z) = z := by
  have hdigits := (scan_decimalNat z.natAbs).1
  have hvalue := digitsValue_decimalNat z.natAbs
  have hneg : ¬ z < 0 := by omega
  have hbig : ¬ 2 ^ width ≤ ((z.natAbs : Nat) : Int) := by omega
  simp only [scanUnsigned, scan_decimal, hdigits, hvalue, hneg, decide_false, hbig, if_false,
    Bool.false_eq_true]
  omega

/-- A C string loses nothing exactly if there is no NUL byte. -/
theorem cstr_eq_iff (s : Bytes) : cstr s = s ↔ 0 ∉ s := by
  rw [cstr, List.takeWhile_eq_self_iff]
  constructor
  · intro h hzero
    simpa using h 0 hzero
  · intro h b hb
    have hne : b ≠ 0 := fun heq => h (heq ▸ hb)
    simpa using hne

/-- A number is printed without a null byte. -/
theorem cstr_decimal (z : Int) : cstr (decimal z) = decimal z := by
  rw [cstr_eq_iff]
  intro hzero
  unfold decimal at hzero
  split at hzero
  · rcases List.mem_cons.mp hzero with hminus | hdigit
    · exact absurd hminus (by decide)
    · exact (digit_ne (isDigit_of_mem_decimalNat hdigit)).2.2.2 rfl
  · exact (digit_ne (isDigit_of_mem_decimalNat hzero)).2.2.2 rfl

/-! ## Finding and replacing -/

/-- What is found stands there. -/
theorem find_spec {pattern text : Bytes} {pos : Nat} (h : find pattern text = some pos) :
    ∃ left right, text = left ++ (pattern ++ right) ∧ left.length = pos := by
  induction text generalizing pos with
  | nil =>
      cases pattern with
      | nil =>
          obtain rfl := Option.some.inj h
          exact ⟨[], [], rfl, rfl⟩
      | cons c tail => cases h
  | cons b rest ih =>
      unfold find at h
      split at h
      · rename_i hprefix
        obtain ⟨right, hright⟩ := List.isPrefixOf_iff_prefix.mp hprefix
        obtain rfl := Option.some.inj h
        exact ⟨[], right, hright.symm, rfl⟩
      · obtain ⟨pos', hfind, rfl⟩ := Option.map_eq_some_iff.mp h
        obtain ⟨left, right, heq, hlen⟩ := ih hfind
        exact ⟨b :: left, right, by rw [heq]; rfl, by rw [List.length_cons, hlen]⟩

/-- More text behind does not change what is found first. -/
theorem find_append {pattern text : Bytes} {pos : Nat} (h : find pattern text = some pos)
    (rest : Bytes) : find pattern (text ++ rest) = some pos := by
  induction text generalizing pos with
  | nil =>
      cases pattern with
      | nil =>
          obtain rfl := Option.some.inj h
          cases rest <;> rfl
      | cons c tail => cases h
  | cons b text ih =>
      unfold find at h
      rw [List.cons_append, find]
      split at h
      · rename_i hprefix
        have hprefix' : pattern.isPrefixOf (b :: (text ++ rest)) = true := by
          rw [List.isPrefixOf_iff_prefix] at hprefix ⊢
          exact hprefix.trans (List.prefix_append (b :: text) rest)
        rw [if_pos hprefix']
        exact h
      · rename_i hprefix
        obtain ⟨pos', hfind, rfl⟩ := Option.map_eq_some_iff.mp h
        obtain ⟨left, right, heq, hlen⟩ := find_spec hfind
        have hprefix' : ¬ pattern.isPrefixOf (b :: (text ++ rest)) = true := by
          rw [List.isPrefixOf_iff_prefix] at hprefix ⊢
          intro hcase
          refine hprefix (List.prefix_of_prefix_length_le hcase
            (List.prefix_append (b :: text) rest) ?_)
          rw [heq]
          simp only [List.length_cons, List.length_append]
          omega
        rw [if_neg hprefix', ih hfind]
        rfl

/-- A pattern whose first byte does not come again in it is found where it is put. -/
theorem find_append_self {b : UInt8} {tail text : Bytes} (hb : b ∉ tail)
    (h : find (b :: tail) text = none) (rest : Bytes) :
    find (b :: tail) (text ++ (b :: tail ++ rest)) = some text.length := by
  induction text with
  | nil => simp [find]
  | cons c text ih =>
      unfold find at h
      split at h
      · cases h
      · rename_i hprefix
        have hfind := ih (by simpa using h)
        have hprefix' :
            ¬ (b :: tail).isPrefixOf (c :: (text ++ (b :: tail ++ rest))) = true := by
          rw [List.isPrefixOf_iff_prefix] at hprefix ⊢
          intro hcase
          obtain ⟨_, htail⟩ := List.cons_prefix_cons.mp hcase
          obtain ⟨right, hright⟩ := htail
          rcases List.append_eq_append_iff.mp hright with ⟨middle, htext, _⟩ | ⟨middle, htail, heq⟩
          · refine hprefix (List.cons_prefix_cons.mpr ⟨(List.cons_prefix_cons.mp hcase).1, ?_⟩)
            rw [htext]
            exact List.prefix_append tail middle
          · cases middle with
            | nil =>
                rw [List.append_nil] at htail
                exact hprefix (List.cons_prefix_cons.mpr
                  ⟨(List.cons_prefix_cons.mp hcase).1, htail ▸ List.prefix_rfl⟩)
            | cons d middle =>
                -- The first byte of the pattern would stand inside the pattern.
                obtain ⟨rfl, _⟩ := List.cons.inj heq
                exact hb (htail ▸ by simp)
        rw [List.cons_append, find, if_neg hprefix', hfind]
        rfl

/-- One more byte completes no pattern that ends in another byte. -/
theorem find_concat_eq_none {pattern text : Bytes} {c : UInt8} (hne : pattern ≠ [])
    (hlast : ∀ init, pattern ≠ init ++ [c]) (h : find pattern text = none) :
    find pattern (text ++ [c]) = none := by
  induction text with
  | nil =>
      have hprefix : ¬ pattern.isPrefixOf [c] = true := by
        rw [List.isPrefixOf_iff_prefix]
        intro hcase
        rcases List.prefix_concat_iff.mp (show pattern <+: [] ++ [c] from hcase) with heq | hnil
        · exact hlast [] heq
        · exact hne (List.prefix_nil.mp hnil)
      simp [find, hprefix, hne]
  | cons b text ih =>
      unfold find at h
      split at h
      · cases h
      · rename_i hprefix
        have hprefix' : ¬ pattern.isPrefixOf (b :: (text ++ [c])) = true := by
          rw [List.isPrefixOf_iff_prefix] at hprefix ⊢
          intro hcase
          rcases List.prefix_concat_iff.mp
            (show pattern <+: (b :: text) ++ [c] from hcase) with heq | hshort
          · exact hlast (b :: text) heq
          · exact hprefix hshort
        rw [List.cons_append, find, if_neg hprefix', ih (by simpa using h)]
        rfl

/-- What stands in a text is found. -/
theorem find_isSome (pattern left right : Bytes) :
    (find pattern (left ++ (pattern ++ right))).isSome := by
  induction left with
  | nil =>
      cases hp : pattern ++ right with
      | nil =>
          obtain ⟨rfl, _⟩ := List.append_eq_nil_iff.mp hp
          rfl
      | cons b rest =>
          have hprefix : pattern.isPrefixOf (b :: rest) = true := by
            rw [List.isPrefixOf_iff_prefix, ← hp]
            exact List.prefix_append pattern right
          simp [find, hprefix]
  | cons b left ih =>
      rw [List.cons_append, find]
      split
      · rfl
      · simpa using ih

/-- Replacing what stands between two texts. -/
theorem replace_append (left middle right repl : Bytes) :
    replace (left ++ (middle ++ right)) left.length middle.length repl =
      left ++ (repl ++ right) := by
  simp [replace, List.drop_append]

example : decimal (-120) = [45, 49, 50, 48] := by decide
example : scanSigned 32 [32, 45, 49, 50, 120] = -12 := by decide

end ByteText
