/-
SHA-256 on natural numbers below 2^32.  The operations are the ones the kernel
evaluates on literals, so that digests of concrete messages can be computed in
proofs.  A digest with known values has no collisions and is the given one on the
inputs of a table.
-/
import WebOvpn.Lib.Listing
import WebOvpn.Lib.Text

namespace WebOvpn

open List

namespace Sha256

/-- The last 32 bits. -/
def low (x : Nat) : Nat := Nat.mod x 4294967296

/-- A word written twice in a row: a shift of it is a rotation of the word. -/
def twice (x : Nat) : Nat := Nat.mul x 4294967297

def rotations (x i j k : Nat) : Nat :=
  low (Nat.xor (Nat.xor (Nat.shiftRight (twice x) i) (Nat.shiftRight (twice x) j))
    (Nat.shiftRight (twice x) k))

def rotationsShift (x i j k : Nat) : Nat :=
  low (Nat.xor (Nat.xor (Nat.shiftRight (twice x) i) (Nat.shiftRight (twice x) j))
    (Nat.shiftRight x k))

def choose (x y z : Nat) : Nat :=
  Nat.xor (Nat.land x y) (Nat.land (Nat.sub 4294967295 x) z)

def majority (x y z : Nat) : Nat :=
  Nat.xor (Nat.xor (Nat.land x y) (Nat.land x z)) (Nat.land y z)

def constants : List Nat :=
  [0x428a2f98, 0x71374491, 0xb5c0fbcf, 0xe9b5dba5, 0x3956c25b, 0x59f111f1,
    0x923f82a4, 0xab1c5ed5, 0xd807aa98, 0x12835b01, 0x243185be, 0x550c7dc3,
    0x72be5d74, 0x80deb1fe, 0x9bdc06a7, 0xc19bf174, 0xe49b69c1, 0xefbe4786,
    0x0fc19dc6, 0x240ca1cc, 0x2de92c6f, 0x4a7484aa, 0x5cb0a9dc, 0x76f988da,
    0x983e5152, 0xa831c66d, 0xb00327c8, 0xbf597fc7, 0xc6e00bf3, 0xd5a79147,
    0x06ca6351, 0x14292967, 0x27b70a85, 0x2e1b2138, 0x4d2c6dfc, 0x53380d13,
    0x650a7354, 0x766a0abb, 0x81c2c92e, 0x92722c85, 0xa2bfe8a1, 0xa81a664b,
    0xc24b8b70, 0xc76c51a3, 0xd192e819, 0xd6990624, 0xf40e3585, 0x106aa070,
    0x19a4c116, 0x1e376c08, 0x2748774c, 0x34b0bcb5, 0x391c0cb3, 0x4ed8aa4a,
    0x5b9cca4f, 0x682e6ff3, 0x748f82ee, 0x78a5636f, 0x84c87814, 0x8cc70208,
    0x90befffa, 0xa4506ceb, 0xbef9a3f7, 0xc67178f2]

structure State where
  a : Nat
  b : Nat
  c : Nat
  d : Nat
  e : Nat
  f : Nat
  g : Nat
  h : Nat

def initial : State :=
  ⟨0x6a09e667, 0xbb67ae85, 0x3c6ef372, 0xa54ff53a, 0x510e527f, 0x9b05688c, 0x1f83d9ab, 0x5be0cd19⟩

/-- Evaluate a number before going on with it. -/
def strict {α : Type} (n : Nat) (next : Nat → α) : α :=
  Nat.casesOn n (next 0) fun m => next (Nat.succ m)

def round : State → Nat → Nat → State
  | ⟨a, b, c, d, e, f, g, h⟩, k, w =>
    strict (Nat.add (Nat.add (Nat.add h (rotations e 6 11 25)) (choose e f g))
      (Nat.add k w)) fun t =>
      strict (low (Nat.add t (Nat.add (rotations a 2 13 22) (majority a b c)))) fun a' =>
        strict (low (Nat.add d t)) fun e' => ⟨a', a, b, c, e', e, f, g⟩

/-- The sixteen newest words of the schedule are one number, the oldest word in
front; the next word is pushed in behind. -/
def slide (window : Nat) : Nat :=
  Nat.mod (Nat.add (Nat.mul window 4294967296)
    (low (Nat.add (Nat.add (rotationsShift (low (Nat.shiftRight window 32)) 17 19 10)
        (low (Nat.shiftRight window 192)))
      (Nat.add (rotationsShift (low (Nat.shiftRight window 448)) 7 18 3)
        (Nat.shiftRight window 480))))) (Nat.pow 2 512)

def rounds : List Nat → State → Nat → State
  | [], s, _ => s
  | k :: ks, s, window =>
    strict window fun window =>
      rounds ks (round s k (Nat.shiftRight window 480)) (slide window)

/-- One block, given as a number of 512 bits. -/
def compress (s : State) (block : Nat) : State :=
  match s, rounds constants s block with
  | ⟨a, b, c, d, e, f, g, h⟩, ⟨a', b', c', d', e', f', g', h'⟩ =>
    ⟨low (Nat.add a a'), low (Nat.add b b'), low (Nat.add c c'), low (Nat.add d d'),
      low (Nat.add e e'), low (Nat.add f f'), low (Nat.add g g'), low (Nat.add h h')⟩

/-- Read the padded message; `count` bytes of the current block are in `block`. -/
def absorb : Bytes → State → Nat → Nat → State
  | [], s, _, _ => s
  | byte :: rest, s, count, block =>
    strict (Nat.add (Nat.mul block 256) byte.toNat) fun block =>
      if count = 63 then absorb rest (compress s block) 0 0
      else absorb rest s (count + 1) block

def padding (length : Nat) : Bytes :=
  [0x80] ++ List.replicate ((119 - length % 64) % 64) 0 ++
    (List.range 8).map fun i => UInt8.ofNat (8 * length / 256 ^ (7 - i))

def State.value (s : State) : Nat :=
  [s.a, s.b, s.c, s.d, s.e, s.f, s.g, s.h].foldl
    (fun acc word => Nat.add (Nat.mul acc 4294967296) word) 0

def hexDigit (n : Nat) : CodePoint :=
  if n % 16 < 10 then ⟨48 + n % 16, by omega⟩ else ⟨87 + n % 16, by omega⟩

def hexDigits (count value : Nat) : Text :=
  (List.range count).map fun i => hexDigit (value / 16 ^ (count - 1 - i))

theorem hexDigit_isLowerHex (n : Nat) : (hexDigit n).isLowerHex = true := by
  unfold hexDigit CodePoint.isLowerHex CodePoint.isDigit
  split <;> simp <;> omega

theorem fullmatch_replicate_map {α : Type} {cls : CodePoint → Bool} {f : α → CodePoint}
    (hf : ∀ x, cls (f x) = true) (xs : List α) :
    Text.fullmatch (List.replicate xs.length cls) (xs.map f) = true := by
  induction xs with
  | nil => rfl
  | cons x rest ih =>
    change (cls (f x) && Text.fullmatch (List.replicate rest.length cls) (rest.map f)) = true
    rw [hf x, ih]
    rfl

def hexdigest (message : Bytes) : Sha256Hex :=
  ⟨hexDigits 64 (absorb (message ++ padding message.length) initial 0 0).value,
    fullmatch_replicate_map (fun _ => hexDigit_isLowerHex _) (List.range 64)⟩

-- the two-block message of the standard
example : (hexdigest ("abcdbcdecdefdefgefghfghighijhijkijkljklmklmnlmnomnopnopq".toList.map
    fun c => UInt8.ofNat c.toNat)).val =
    "248d6a61d20638b8e5c026930c3e6039a33ce45964ff2167f6ecedd419db06c1" := by
  decide +kernel

end Sha256

/-- The digests of the known inputs; any other input stands for itself, after
more zeros than a digest has digits. -/
def digestFrom (known : List (Bytes × Text)) (bytes : Bytes) : Text :=
  (known.lookup bytes).getD
    (List.replicate 65 0 ++ bytes.map fun b => ⟨b.toNat, b.toNat_lt.trans (by decide)⟩)

variable {known : List (Bytes × Text)}

/-- Long texts are kept apart from the digests of a table. -/
theorem lookup_getD_injective (hnd : (known.map Prod.snd).Nodup)
    (hlen : ∀ entry ∈ known, entry.2.length = 64) {other : Bytes → Text}
    (hot : Function.Injective other)
    (hln : ∀ bytes, 64 < (other bytes).length) :
    Function.Injective fun bytes => (known.lookup bytes).getD (other bytes) := by
  have hne : ∀ (bytes bytes' : Bytes) (digest : Text), known.lookup bytes = some digest →
    digest ≠ other bytes' := by
    intro bytes bytes' digest hkn heq
    have hsh : digest.length = 64 := hlen _ (mem_of_lookup hkn)
    have hlonger := hln bytes'
    rw [← heq] at hlonger
    omega
  intro a b h
  dsimp only at h
  cases ha : known.lookup a with
  | some digest =>
    cases hb : known.lookup b with
    | some digest' =>
      rw [ha, hb] at h
      exact congrArg Prod.fst (inj_on_of_nodup_map hnd (mem_of_lookup ha) (mem_of_lookup hb) h)
    | none =>
      rw [ha, hb] at h
      exact absurd h (hne a b digest ha)
  | none =>
    cases hb : known.lookup b with
    | some digest =>
      rw [ha, hb] at h
      exact absurd h.symm (hne b a digest hb)
    | none =>
      rw [ha, hb] at h
      exact hot h

theorem digestFrom_injective (hnd : (known.map Prod.snd).Nodup)
    (hlen : ∀ entry ∈ known, entry.2.length = 64) : Function.Injective (digestFrom known) := by
  apply lookup_getD_injective hnd hlen
  · intro a b h
    apply map_injective_iff.2 _ (append_cancel_left h)
    intro x y hxy
    have hvl := congrArg (fun c : CodePoint => c.val) hxy
    exact UInt8.toNat_inj.1 hvl
  · intro bytes
    rw [length_append, length_replicate]
    omega

def hexByte (b : UInt8) : Text := [Sha256.hexDigit (b.toNat / 16), Sha256.hexDigit b.toNat]

/-- The digests of the known inputs; any other input is written out, after more zeros
than a digest has digits. -/
def hexDigestFrom (known : List (Bytes × Text)) (bytes : Bytes) : Text :=
  (known.lookup bytes).getD (List.replicate 65 (Sha256.hexDigit 0) ++ bytes.flatMap hexByte)

theorem hexDigit_inj {m n : Nat} (h : Sha256.hexDigit m = Sha256.hexDigit n) : m % 16 = n % 16 := by
  unfold Sha256.hexDigit at h
  split_ifs at h
  · have hvl := congrArg Fin.val h
    dsimp only at hvl
    omega
  · have hvl := congrArg Fin.val h
    dsimp only at hvl
    omega
  · have hvl := congrArg Fin.val h
    dsimp only at hvl
    omega
  · have hvl := congrArg Fin.val h
    dsimp only at hvl
    omega

theorem flatMap_hexByte_injective : Function.Injective fun bytes : Bytes => bytes.flatMap hexByte := by
  intro a
  induction a with
  | nil =>
    intro b h
    cases b with
    | nil => rfl
    | cons y b => cases h
  | cons x a ih =>
    intro b h
    cases b with
    | nil => cases h
    | cons y b =>
      obtain ⟨hhg, hmr⟩ := List.cons.inj h
      obtain ⟨hlow, hrs⟩ := List.cons.inj hmr
      have hquo := hexDigit_inj hhg
      have hrem := hexDigit_inj hlow
      have hx := x.toNat_lt
      have hy := y.toNat_lt
      have hby : x = y := UInt8.toNat_inj.1 (by omega)
      rw [hby, ih hrs]

theorem hexDigestFrom_injective (hnd : (known.map Prod.snd).Nodup)
    (hlen : ∀ entry ∈ known, entry.2.length = 64) : Function.Injective (hexDigestFrom known) := by
  apply lookup_getD_injective hnd hlen
  · intro a b h
    exact flatMap_hexByte_injective (append_cancel_left h)
  · intro bytes
    rw [length_append, length_replicate]
    omega

theorem hexDigestFrom_isLowerHex (h : ∀ entry ∈ known, ∀ c ∈ entry.2, c.isLowerHex = true)
    (bytes : Bytes) : ∀ c ∈ hexDigestFrom known bytes, c.isLowerHex = true := by
  unfold hexDigestFrom
  cases hkn : known.lookup bytes with
  | some digest => exact h _ (mem_of_lookup hkn)
  | none =>
    intro c hc
    rcases mem_append.1 hc with hc | hc
    · rw [eq_of_mem_replicate hc]
      exact Sha256.hexDigit_isLowerHex 0
    · obtain ⟨b, -, hc⟩ := mem_flatMap.1 hc
      rcases mem_cons.1 hc with rfl | hc
      · exact Sha256.hexDigit_isLowerHex _
      · rw [mem_singleton.1 hc]
        exact Sha256.hexDigit_isLowerHex _

end WebOvpn
