import Mathlib.Algebra.Group.Nat.Defs
import Mathlib.Data.Nat.Basic
import Mathlib.Data.List.Basic

/- Fixed-size little-endian layouts, as a C compiler lays out the fields of a
   struct. A `Codec` carries its own round trip: decoding reads the first `size`
   bytes, takes a missing byte as zero and gives back what was encoded, whatever
   follows. Records are built from their fields with `pair`, `pad` and `map`. -/
namespace Codec

/-- The low `n` bytes of `x`, least significant first. -/
def le : Nat → Nat → List UInt8
  | 0, _ => []
  | n + 1, x => UInt8.ofNat x :: le n (x / 256)

/-- The number in the first `n` bytes; a missing byte counts as zero. -/
def readLE : Nat → List UInt8 → Nat
  | 0, _ => 0
  | n + 1, bs => (bs.headD 0).toNat + 256 * readLE n bs.tail

@[simp] theorem le_length (n x : Nat) : (le n x).length = n := by
  induction n generalizing x with
  | zero => rfl
  | succ n ih => simp [le, ih]

theorem readLE_le (n x : Nat) (rest : List UInt8) : readLE n (le n x ++ rest) = x % 256 ^ n := by
  induction n generalizing x with
  | zero => simp [readLE, Nat.mod_one]
  | succ n ih =>
    have hbyte : (UInt8.ofNat x).toNat = x % 256 := by simp
    simp only [le, List.cons_append, readLE, List.headD_cons, List.tail_cons, ih, hbyte]
    rw [Nat.pow_succ', Nat.mod_mul]

end Codec

/-- A fixed-size layout of the values of `α`, with its round trip. -/
structure Codec (α : Type) where
  size : Nat
  enc : α → List UInt8
  dec : List UInt8 → α
  enc_length : ∀ a, (enc a).length = size
  dec_enc : ∀ a rest, dec (enc a ++ rest) = a

namespace Codec

attribute [simp] enc_length dec_enc

variable {α β : Type}

theorem dec_enc_self (c : Codec α) (a : α) : c.dec (c.enc a) = a := by
  have h := c.dec_enc a []
  rwa [List.append_nil] at h

theorem take_enc (c : Codec α) (a : α) (rest : List UInt8) :
    (c.enc a ++ rest).take c.size = c.enc a := by
  rw [← c.enc_length a, List.take_left]

theorem drop_enc (c : Codec α) (a : α) (rest : List UInt8) :
    (c.enc a ++ rest).drop c.size = rest := by
  rw [← c.enc_length a, List.drop_left]

/-- `n` bytes of a machine word. -/
def bits (n : Nat) : Codec (BitVec (8 * n)) where
  size := n
  enc x := le n x.toNat
  dec bs := BitVec.ofNat (8 * n) (readLE n bs)
  enc_length x := le_length n x.toNat
  dec_enc x rest := by
    have hpow : (256 : Nat) ^ n = 2 ^ (8 * n) := by rw [Nat.pow_mul]
    rw [readLE_le, hpow, Nat.mod_eq_of_lt x.isLt, BitVec.ofNat_toNat, BitVec.setWidth_eq]

/-- `n` bytes nobody reads, written as zeros. -/
def pad (n : Nat) : Codec Unit where
  size := n
  enc _ := List.replicate n 0
  dec _ := ()
  enc_length _ := List.length_replicate
  dec_enc _ _ := rfl

/-- One field after another. -/
def pair (c : Codec α) (d : Codec β) : Codec (α × β) where
  size := c.size + d.size
  enc p := c.enc p.1 ++ d.enc p.2
  dec bs := (c.dec bs, d.dec (bs.drop c.size))
  enc_length p := by simp
  dec_enc p rest := by
    rw [List.append_assoc, dec_enc, drop_enc, dec_enc]

/-- The layout of `α` through a type it maps into. -/
def map (c : Codec β) (f : α → β) (g : β → α) (hgf : ∀ a, g (f a) = a) : Codec α where
  size := c.size
  enc a := c.enc (f a)
  dec bs := g (c.dec bs)
  enc_length a := c.enc_length (f a)
  dec_enc a rest := by rw [dec_enc, hgf]

def uint16 : Codec UInt16 := (bits 2).map UInt16.toBitVec UInt16.ofBitVec (fun _ => rfl)

def int32 : Codec Int32 := (bits 4).map Int32.toBitVec Int32.ofBitVec (fun _ => rfl)

def int64 : Codec Int64 := (bits 8).map Int64.toBitVec Int64.ofBitVec (fun _ => rfl)

def uint32 : Codec UInt32 := (bits 4).map UInt32.toBitVec UInt32.ofBitVec (fun _ => rfl)

/-! Layouts without padding. -/

theorem readLE_lt (n : Nat) (bs : List UInt8) : readLE n bs < 256 ^ n := by
  induction n generalizing bs with
  | zero => simp [readLE]
  | succ n ih =>
    have hhead := (bs.headD 0).toNat_lt
    have htail := ih bs.tail
    rw [readLE, Nat.pow_succ']
    omega

theorem le_readLE : ∀ {n : Nat} {bs : List UInt8}, bs.length = n → le n (readLE n bs) = bs
  | 0, [], _ => rfl
  | n + 1, b :: bs, h => by
    have hb := b.toNat_lt
    have hrest : bs.length = n := Nat.succ.inj h
    have hdiv : (b.toNat + 256 * readLE n bs) / 256 = readLE n bs := by omega
    have hhead : UInt8.ofNat (b.toNat + 256 * readLE n bs) = b := by
      apply UInt8.toNat_inj.mp
      rw [UInt8.toNat_ofNat']
      omega
    rw [readLE, List.headD_cons, List.tail_cons, le, hdiv, hhead, le_readLE hrest]

/-- Every byte counts: a value read from `size` bytes is written as those bytes. -/
def Exact (c : Codec α) : Prop := ∀ bs, bs.length = c.size → c.enc (c.dec bs) = bs

/-- A value that was read with enough bytes behind it stands at the front of them. -/
theorem Exact.eq_append {c : Codec α} (h : c.Exact) {bs : List UInt8} (hlen : c.size ≤ bs.length) :
    c.enc (c.dec (bs.take c.size)) ++ bs.drop c.size = bs := by
  rw [h _ (by rw [List.length_take, Nat.min_eq_left hlen]), List.take_append_drop]

theorem bits_exact (n : Nat) : (bits n).Exact := by
  intro bs hlen
  have hpow : (256 : Nat) ^ n = 2 ^ (8 * n) := by rw [Nat.pow_mul]
  have hlt : readLE n bs < 2 ^ (8 * n) := hpow ▸ readLE_lt n bs
  show le n (BitVec.ofNat (8 * n) (readLE n bs)).toNat = bs
  rw [BitVec.toNat_ofNat, Nat.mod_eq_of_lt hlt]
  exact le_readLE hlen

/-- What comes behind the value is not read. -/
theorem Exact.dec_take {c : Codec α} (h : c.Exact) {bs : List UInt8} (hlen : c.size ≤ bs.length) :
    c.dec (bs.take c.size) = c.dec bs := by
  conv_rhs => rw [← h.eq_append hlen, c.dec_enc]

theorem Exact.pair {c : Codec α} {d : Codec β} (hc : c.Exact) (hd : d.Exact) :
    (c.pair d).Exact := by
  intro bs hlen
  have hsize : bs.length = c.size + d.size := hlen
  have hfirst : (bs.take c.size).length = c.size := by
    rw [List.length_take]
    omega
  have hsecond : (bs.drop c.size).length = d.size := by
    rw [List.length_drop]
    omega
  show c.enc (c.dec bs) ++ d.enc (d.dec (bs.drop c.size)) = bs
  rw [← hc.dec_take (by omega), hc _ hfirst, hd _ hsecond, List.take_append_drop]

theorem Exact.map {c : Codec β} (h : c.Exact) {f : α → β} {g : β → α} {hgf : ∀ a, g (f a) = a}
    (hfg : ∀ b, f (g b) = b) : (c.map f g hgf).Exact := by
  intro bs hlen
  show c.enc (f (g (c.dec bs))) = bs
  rw [hfg, h bs hlen]

end Codec
