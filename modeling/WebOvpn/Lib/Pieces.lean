/-
A stream of bytes that arrives in pieces.  A read takes from the first piece at most as
much as was asked for, so how a stream is cut shows in what the reads return.
-/
import WebOvpn.Lib.Text

namespace WebOvpn.Pieces

open List

/-- `sock.recv(n)`; nothing is returned at the end of the stream. -/
def recv (n : Nat) : List Bytes → Bytes × List Bytes
  | [] => ([], [])
  | piece :: rest => if piece.length ≤ n then (piece, rest) else (piece.take n, piece.drop n :: rest)

/-- No read returns nothing before the end. -/
def IsSound (s : List Bytes) : Prop := ∀ piece ∈ s, piece ≠ []

/-- A piece ends after so many bytes. -/
def IsCut (s : List Bytes) (n : Nat) : Prop := ∃ past rest, s = past ++ rest ∧ past.flatten.length = n

variable {s : List Bytes} {n m : Nat} {front tail : Bytes}

theorem recv_cons (n : Nat) (piece : Bytes) (rest : List Bytes) : recv n (piece :: rest) =
    if piece.length ≤ n then (piece, rest) else (piece.take n, piece.drop n :: rest) := rfl

theorem recv_append (n : Nat) (s : List Bytes) : (recv n s).1 ++ (recv n s).2.flatten = s.flatten := by
  unfold recv
  split
  · rfl
  · split_ifs
    · rfl
    · rw [flatten_cons, ← append_assoc, take_append_drop]
      rfl

theorem length_recv_le (n : Nat) (s : List Bytes) : (recv n s).1.length ≤ n := by
  unfold recv
  split
  · exact Nat.zero_le n
  · split_ifs with hfs
    · exact hfs
    · exact length_take_le n _

theorem IsSound.recv (h : IsSound s) (n : Nat) : IsSound (Pieces.recv n s).2 := by
  unfold Pieces.recv
  split
  · exact h
  · next piece rest =>
    split_ifs with hfs
    · intro other hot
      exact h other (mem_cons_of_mem _ hot)
    · intro other hot
      rcases mem_cons.1 hot with rfl | hot
      · intro hnil
        exact hfs (drop_eq_nil_iff.1 hnil)
      · exact h other (mem_cons_of_mem _ hot)

/-- A read for at least one byte returns one, if there is one. -/
theorem IsSound.recv_ne_nil (h : IsSound s) (hn : 0 < n) (hs : s.flatten ≠ []) :
    (Pieces.recv n s).1 ≠ [] := by
  unfold Pieces.recv
  split
  · exact absurd rfl hs
  · next piece rest =>
    have hpie := h piece mem_cons_self
    split_ifs
    · exact hpie
    · intro hnil
      rcases take_eq_nil_iff.1 hnil with hzr | hnil
      · exact hn.ne' hzr
      · exact hpie hnil

theorem isCut_zero (s : List Bytes) : IsCut s 0 := ⟨[], s, rfl, rfl⟩

theorem isCut_cons {piece : Bytes} : IsCut (piece :: s) n ↔ n = 0 ∨ ∃ m, IsCut s m ∧
    n = piece.length + m := by
  constructor
  · rintro ⟨past, rest, heq, rfl⟩
    cases past with
    | nil => exact .inl rfl
    | cons head past =>
      cases heq
      refine .inr ⟨past.flatten.length, ⟨past, rest, rfl, rfl⟩, ?_⟩
      rw [flatten_cons, length_append]
  · rintro (rfl | ⟨m, ⟨past, rest, rfl, rfl⟩, rfl⟩)
    · exact isCut_zero _
    · refine ⟨piece :: past, rest, rfl, ?_⟩
      rw [flatten_cons, length_append]

theorem isCut_recv (hm : 0 < m) : IsCut (recv n s).2 m ↔ IsCut s ((recv n s).1.length + m) := by
  unfold recv
  split
  · rw [length_nil, Nat.zero_add]
  · next piece rest =>
    split_ifs with hfs
    · rw [isCut_cons]
      constructor
      · intro hcut
        exact .inr ⟨m, hcut, rfl⟩
      · rintro (hzr | ⟨other, hcut, heq⟩)
        · omega
        · rwa [Nat.add_left_cancel heq]
    · have hlen : (piece.take n).length = n := length_take_of_le (by omega)
      rw [isCut_cons, isCut_cons, hlen, length_drop]
      apply or_congr
      · omega
      · apply exists_congr
        intro other
        apply and_congr_right'
        omega

/-- A read returns all that was asked for, unless a piece ends before that. -/
theorem recv_eq_iff (hs : IsSound s) (hn : 0 < n) (h : s.flatten = front ++ tail)
    (hfr : front.length = n) :
    (recv n s).1 = front ↔ ∀ k, 0 < k → k < n → ¬ IsCut s k := by
  have hap := recv_append n s
  rw [h] at hap
  constructor
  · intro heq k hk hkn hcut
    have hlen : n ≤ (recv n s).1.length := by rw [heq, hfr]
    clear hap h
    cases s with
    | nil =>
      obtain ⟨past, rest, heq', rfl⟩ := hcut
      obtain ⟨rfl, rfl⟩ := append_eq_nil_iff.1 heq'.symm
      exact Nat.lt_irrefl 0 hk
    | cons piece rest =>
      rcases isCut_cons.1 hcut with rfl | ⟨m, -, rfl⟩
      · exact Nat.lt_irrefl 0 hk
      · rw [recv_cons, if_pos (by omega)] at hlen
        exact absurd (le_trans (Nat.le_add_right _ _) (Nat.le_of_lt hkn))
          (by change n ≤ piece.length at hlen; omega)
  · intro hwho
    have hlen : (recv n s).1.length = n := by
      cases s with
      | nil =>
        have hnil : front = [] := (append_eq_nil_iff.1 h.symm).1
        rw [hnil] at hfr
        exact absurd hfr hn.ne
      | cons piece rest =>
        rw [recv_cons]
        have hpie : 0 < piece.length := length_pos_iff.2 (hs piece mem_cons_self)
        have hln : n ≤ piece.length := by
          by_contra hsh
          exact hwho piece.length hpie (by omega) (isCut_cons.2 (.inr ⟨0, isCut_zero rest, rfl⟩))
        split_ifs with hfs
        · exact le_antisymm hfs hln
        · exact length_take_of_le hln
    exact (append_inj hap (by rw [hlen, hfr])).1

theorem recv_tail (h : s.flatten = front ++ tail) (heq : (recv n s).1 = front) :
    (recv n s).2.flatten = tail := by
  have hap := recv_append n s
  rw [h, heq] at hap
  exact append_cancel_left hap

/-- One byte is always read whole. -/
theorem recv_one (hs : IsSound s) {a : UInt8} (h : s.flatten = a :: tail) : (recv 1 s).1 = [a] := by
  apply (recv_eq_iff hs Nat.zero_lt_one h rfl).2
  intro k hk hlt
  omega

end WebOvpn.Pieces
