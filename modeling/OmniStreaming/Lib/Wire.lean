import Mathlib.Algebra.Order.Ring.Int
import Mathlib.Tactic.Ring

/-!
# Messages that hold trees

`Wire` is the data of a self-describing binary format: the scalars, strings and byte strings,
arrays and maps whose keys are strings. A `Wire.Format` writes such data as bytes and reads it
back, as long as the data is within the limits of the format: integers of 64 bits, and lengths
that fit in 32 bits (`Wire.fits`).

A reader takes what it reads off the front of the bytes. `Reads r a bs` says that `bs` is read as
`a` whatever follows it; it is kept by sequencing and repetition, so a message is read back by
induction on the tree. `Wire.tagged` is a format of this kind.
-/

/-- What a message holds. -/
inductive Wire
  | nil
  | bool (b : Bool)
  | int (n : ℤ)
  | float (bits : BitVec 64)
  | str (s : String)
  | bin (b : List UInt8)
  | array (l : List Wire)
  | map (d : List (String × Wire))

namespace Wire

open List

/-- The number of bytes of a string in UTF-8. -/
def utf8Length (s : String) : ℕ := (s.toList.map Char.utf8Size).sum

mutual

/-- The data is within the limits of the format. -/
def fits : Wire → Bool
  | .nil | .bool _ | .float _ => true
  | .int n => -2 ^ 63 ≤ n && n < 2 ^ 64
  | .str s => utf8Length s < 2 ^ 32
  | .bin b => b.length < 2 ^ 32
  | .array l => l.length < 2 ^ 32 && fitsList l
  | .map d => d.length < 2 ^ 32 && fitsItems d

/-- Every entry of an array is within the limits. -/
def fitsList : List Wire → Bool
  | [] => true
  | w :: ws => fits w && fitsList ws

/-- Every key and every value of a map is within the limits. -/
def fitsItems : List (String × Wire) → Bool
  | [] => true
  | (k, w) :: ws => utf8Length k < 2 ^ 32 && fits w && fitsItems ws

end

/-- A binary format: what it writes within its limits is not empty, and it reads it back. -/
structure Format where
  pack : Wire → Option (List UInt8)
  unpack : List UInt8 → Option Wire
  unpack_pack : ∀ w : Wire, w.fits → ∃ bs, pack w = some bs ∧ bs ≠ [] ∧ unpack bs = some w

/-! ## Readers -/

section Readers

variable {α β : Type*}

/-- A reader: what it reads off the front, and the bytes that are left. -/
abbrev Reader (α : Type*) := List UInt8 → Option (α × List UInt8)

/-- The bytes are read as `a`, whatever follows them. -/
def Reads (r : Reader α) (a : α) (bs : List UInt8) : Prop := ∀ rest, r (bs ++ rest) = some (a, rest)

/-- Read with `r`, and go on as the result says. -/
def Reader.andThen (r : Reader α) (f : α → Reader β) : Reader β :=
  fun bs => (r bs).bind fun x => f x.1 x.2

/-- Read with `r`, and apply `f` to the result. -/
def Reader.map (f : α → β) (r : Reader α) : Reader β :=
  fun bs => (r bs).map fun x => (f x.1, x.2)

/-- Read with `r`, `n` times. -/
def Reader.times (r : Reader α) : ℕ → Reader (List α)
  | 0 => fun bs => some ([], bs)
  | n + 1 => r.andThen fun a => (r.times n).map fun as => a :: as

variable {r : Reader α} {a : α} {bs : List UInt8}

/-- One reader after the other. -/
lemma Reads.andThen {f : α → Reader β} {b : β} {cs : List UInt8} (h : Reads r a bs)
    (hf : Reads (f a) b cs) : Reads (r.andThen f) b (bs ++ cs) := by
  intro rest
  unfold Reader.andThen
  rw [append_assoc, h (cs ++ rest)]
  exact hf rest

/-- A reader followed by a function. -/
lemma Reads.map (f : α → β) (h : Reads r a bs) : Reads (r.map f) (f a) bs := by
  intro rest
  unfold Reader.map
  rw [h rest]
  rfl

lemma reads_times_nil : Reads (r.times 0) [] [] := fun _ => rfl

/-- A reader once more. -/
lemma Reads.times_cons {as : List α} {cs : List UInt8} (h : Reads r a bs)
    (hs : Reads (r.times as.length) as cs) :
    Reads (r.times (a :: as).length) (a :: as) (bs ++ cs) :=
  h.andThen (hs.map _)

/-- Entries that are read one by one are read by repetition. -/
lemma reads_times {write : α → List UInt8} {as : List α} (h : ∀ a ∈ as, Reads r a (write a)) :
    Reads (r.times as.length) as (as.flatMap write) := by
  induction as with
  | nil => exact reads_times_nil
  | cons a as ih =>
    rw [flatMap_cons]
    exact (h a mem_cons_self).times_cons (ih fun b hb => h b (mem_cons_of_mem a hb))

end Readers

/-! ## Numbers, strings -/

/-- The last `8 * k` bits of a number, the lowest byte first. -/
def bytesOf : ℕ → ℕ → List UInt8
  | 0, _ => []
  | k + 1, n => UInt8.ofNat n :: bytesOf k (n / 256)

/-- A number of `k` bytes. -/
def readNat : ℕ → Reader ℕ
  | 0 => fun bs => some (0, bs)
  | k + 1 => fun
    | [] => none
    | b :: bs => (readNat k).map (fun n => b.toNat + 256 * n) bs

lemma reads_nat {k n : ℕ} (h : n < 256 ^ k) : Reads (readNat k) n (bytesOf k n) := by
  induction k generalizing n with
  | zero =>
    obtain rfl : n = 0 := by simpa using h
    exact fun _ => rfl
  | succ k ih =>
    have hdiv : n / 256 < 256 ^ k := by
      rw [Nat.div_lt_iff_lt_mul (by norm_num)]
      simpa [pow_succ] using h
    intro rest
    have hread := (ih hdiv).map (fun m => (UInt8.ofNat n).toNat + 256 * m) rest
    have hbyte : (UInt8.ofNat n).toNat + 256 * (n / 256) = n := by
      rw [UInt8.toNat_ofNat']
      exact Nat.mod_add_div n 256
    rw [hbyte] at hread
    exact hread

/-- A string: its length, and four bytes for each character. -/
def writeStr (s : String) : List UInt8 :=
  bytesOf 4 s.toList.length ++ s.toList.flatMap fun c => bytesOf 4 c.toNat

/-- Read a string. -/
def readStr : Reader String :=
  ((readNat 4).andThen ((readNat 4).map Char.ofNat).times).map String.ofList

/-- A character takes at least one byte. -/
lemma length_le_utf8Length (s : String) : s.toList.length ≤ utf8Length s := by
  unfold utf8Length
  induction s.toList with
  | nil => exact Nat.le_refl 0
  | cons c cs ih =>
    have hc : 0 < c.utf8Size := Char.utf8Size_pos c
    simp only [map_cons, sum_cons, length_cons]
    omega

lemma reads_char (c : Char) : Reads ((readNat 4).map Char.ofNat) c (bytesOf 4 c.toNat) := by
  have hlt : c.toNat < 256 ^ 4 := c.val.toNat_lt
  have hread := (reads_nat hlt).map Char.ofNat
  rwa [Char.ofNat_toNat] at hread

/-- A string is read back. -/
lemma reads_str {s : String} (h : utf8Length s < 2 ^ 32) : Reads readStr s (writeStr s) := by
  have hlen : s.toList.length < 256 ^ 4 :=
    lt_of_le_of_lt (length_le_utf8Length s) (by simpa using h)
  have hread := (reads_nat hlen).andThen (f := Reader.times _) (reads_times fun c _ => reads_char c)
  have hstr := hread.map String.ofList
  rwa [String.ofList_toList] at hstr

/-! ## The tagged format -/

mutual

/-- Write a tree: a tag, the length where there is one, and the contents. -/
def write : Wire → List UInt8
  | .nil => [0]
  | .bool b => 1 :: bytesOf 1 b.toNat
  | .int n => 2 :: bytesOf 9 (n + 2 ^ 63).toNat
  | .float bits => 3 :: bytesOf 8 bits.toNat
  | .str s => 4 :: writeStr s
  | .bin b => 5 :: (bytesOf 4 b.length ++ b.flatMap fun x => bytesOf 1 x.toNat)
  | .array l => 6 :: (bytesOf 4 l.length ++ writeList l)
  | .map d => 7 :: (bytesOf 4 d.length ++ writeItems d)

/-- The entries of an array. -/
def writeList : List Wire → List UInt8
  | [] => []
  | w :: ws => write w ++ writeList ws

/-- The entries of a map. -/
def writeItems : List (String × Wire) → List UInt8
  | [] => []
  | (k, w) :: ws => (writeStr k ++ write w) ++ writeItems ws

end

/-- Read what stands after a tag, the trees inside with `r`. -/
def readTagged (r : Reader Wire) : ℕ → Reader Wire
  | 0 => fun bs => some (.nil, bs)
  | 1 => (readNat 1).map fun n => .bool (n = 1)
  | 2 => (readNat 9).map fun n : ℕ => .int ((n : ℤ) - 2 ^ 63)
  | 3 => (readNat 8).map fun n => .float (BitVec.ofNat 64 n)
  | 4 => readStr.map .str
  | 5 => ((readNat 4).andThen ((readNat 1).map UInt8.ofNat).times).map .bin
  | 6 => ((readNat 4).andThen r.times).map .array
  | 7 => ((readNat 4).andThen (readStr.andThen fun k => r.map fun w => (k, w)).times).map .map
  | _ => fun _ => none

/-- Read a tree of at most `fuel` levels. -/
def read : ℕ → Reader Wire
  | 0 => fun _ => none
  | fuel + 1 => fun
    | [] => none
    | t :: bs => readTagged (read fuel) t.toNat bs

lemma reads_byte (b : UInt8) : Reads ((readNat 1).map UInt8.ofNat) b (bytesOf 1 b.toNat) := by
  have hread := (reads_nat (k := 1) b.toNat_lt).map UInt8.ofNat
  rwa [UInt8.ofNat_toNat] at hread

/-- A message is not empty. -/
lemma write_ne_nil (w : Wire) : write w ≠ [] := by
  cases w <;> simp [write]

/-- A tag, and what is read after it. -/
lemma Reads.tagged {w : Wire} {fuel : ℕ} {t : UInt8} {bs : List UInt8}
    (h : Reads (readTagged (read fuel) t.toNat) w bs) : Reads (read (fuel + 1)) w (t :: bs) := h

/-- An integer is read back. -/
lemma reads_int {n : ℤ} (hn : fits (.int n)) (fuel : ℕ) :
    Reads (read (fuel + 1)) (.int n) (write (.int n)) := by
  obtain ⟨hlo, hhi⟩ : -2 ^ 63 ≤ n ∧ n < 2 ^ 64 := by simpa [fits] using hn
  have hlt : (n + 2 ^ 63).toNat < 256 ^ 9 := by omega
  have hread := (reads_nat hlt).map fun m : ℕ => Wire.int ((m : ℤ) - 2 ^ 63)
  have hback : ((n + 2 ^ 63).toNat : ℤ) - 2 ^ 63 = n := by omega
  rw [hback] at hread
  exact Reads.tagged (t := 2) hread

/-- A float is read back. -/
lemma reads_float (bits : BitVec 64) (fuel : ℕ) :
    Reads (read (fuel + 1)) (.float bits) (write (.float bits)) := by
  have hread := (reads_nat (k := 8) bits.isLt).map fun m => Wire.float (BitVec.ofNat 64 m)
  rw [BitVec.ofNat_toNat, BitVec.setWidth_eq] at hread
  exact Reads.tagged (t := 3) hread

/-- Bytes are read back. -/
lemma reads_bin {b : List UInt8} (hb : fits (.bin b)) (fuel : ℕ) :
    Reads (read (fuel + 1)) (.bin b) (write (.bin b)) := by
  have hlen : b.length < 256 ^ 4 := by simpa [fits] using hb
  have hread := (reads_nat hlen).andThen (f := Reader.times _) (reads_times fun x _ => reads_byte x)
  exact Reads.tagged (t := 5) (hread.map Wire.bin)

mutual

/-- A tree is read back by as many levels as it has bytes. -/
lemma reads_write : ∀ (w : Wire), w.fits → ∀ fuel, (write w).length ≤ fuel →
    Reads (read fuel) w (write w)
  | w, _, 0, hfuel => absurd (length_eq_zero_iff.mp (Nat.le_zero.mp hfuel)) (write_ne_nil w)
  | .nil, _, _ + 1, _ => fun _ => rfl
  | .bool true, _, _ + 1, _ => fun _ => rfl
  | .bool false, _, _ + 1, _ => fun _ => rfl
  | .int _, hw, fuel + 1, _ => reads_int hw fuel
  | .float bits, _, fuel + 1, _ => reads_float bits fuel
  | .str _, hw, _ + 1, _ =>
    Reads.tagged (t := 4) ((reads_str (by simpa [fits] using hw)).map Wire.str)
  | .bin _, hw, fuel + 1, _ => reads_bin hw fuel
  | .array l, hw, fuel + 1, hfuel => by
    obtain ⟨hlen, hl⟩ : l.length < 256 ^ 4 ∧ fitsList l := by simpa [fits] using hw
    have hle : (writeList l).length ≤ fuel := by
      simp only [write, length_cons, length_append] at hfuel
      omega
    have hread := (reads_nat hlen).andThen (f := (read fuel).times)
      (reads_writeList l hl fuel hle)
    exact Reads.tagged (t := 6) (hread.map Wire.array)
  | .map d, hw, fuel + 1, hfuel => by
    obtain ⟨hlen, hd⟩ : d.length < 256 ^ 4 ∧ fitsItems d := by simpa [fits] using hw
    have hle : (writeItems d).length ≤ fuel := by
      simp only [write, length_cons, length_append] at hfuel
      omega
    have hread := (reads_nat hlen).andThen (f := Reader.times _) (reads_writeItems d hd fuel hle)
    exact Reads.tagged (t := 7) (hread.map Wire.map)

lemma reads_writeList : ∀ (ws : List Wire), fitsList ws → ∀ fuel, (writeList ws).length ≤ fuel →
    Reads ((read fuel).times ws.length) ws (writeList ws)
  | [], _, _, _ => reads_times_nil
  | w :: ws, hws, fuel, hfuel => by
    obtain ⟨hw, hws⟩ : fits w ∧ fitsList ws := by simpa [fitsList] using hws
    simp only [writeList, length_append] at hfuel
    exact (reads_write w hw fuel (by omega)).times_cons (reads_writeList ws hws fuel (by omega))

/-- The entries of a map are read back. -/
lemma reads_writeItems : ∀ (ws : List (String × Wire)), fitsItems ws → ∀ fuel,
    (writeItems ws).length ≤ fuel →
    Reads ((readStr.andThen fun k => (read fuel).map fun w => (k, w)).times ws.length) ws
      (writeItems ws)
  | [], _, _, _ => reads_times_nil
  | (k, w) :: ws, hws, fuel, hfuel => by
    obtain ⟨⟨hk, hw⟩, hws⟩ : (utf8Length k < 2 ^ 32 ∧ fits w) ∧ fitsItems ws := by
      simpa [fitsItems] using hws
    simp only [writeItems, length_append] at hfuel
    have hentry := (reads_str hk).andThen (f := fun k => (read fuel).map fun w => (k, w))
      ((reads_write w hw fuel (by omega)).map fun w => (k, w))
    exact hentry.times_cons (reads_writeItems ws hws fuel (by omega))

end

/-- The tagged format. -/
def tagged : Format where
  pack w := some (write w)
  unpack bs := (read bs.length bs).map Prod.fst
  unpack_pack w hw := by
    have hread := reads_write w hw (write w).length le_rfl []
    rw [append_nil] at hread
    exact ⟨write w, rfl, write_ne_nil w, by rw [hread]; rfl⟩

end Wire
