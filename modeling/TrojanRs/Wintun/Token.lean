import Mathlib.Data.List.Nodup
import Mathlib.Algebra.Group.Nat.Basic

/-! Flow tokens: `next_token` steps the static `NEXT_INDEX` through `[MIN_INDEX, MAX_INDEX)`
and wraps, so any `MAX_INDEX - MIN_INDEX` calls in a row hand out distinct tokens. -/

namespace TrojanRs

set_option autoImplicit false

/-- The constants `next_token` reads from `wintun` (not under src/), with what it needs of them. -/
structure TokenRange where
  minIndex : Nat
  maxIndex : Nat
  channelCnt : Nat
  channelUdp : Nat
  min_lt_max : minIndex < maxIndex
  udp_lt_cnt : channelUdp < channelCnt
  fits : (maxIndex - 1) * channelCnt + channelUdp < 2 ^ 64

/-- `next_token`: the token of the static `NEXT_INDEX`, and the static's next value. -/
def nextToken (r : TokenRange) (nextIndex : Nat) : Nat × Nat :=
  let index := nextIndex
  let nextIndex := if index + 1 ≥ r.maxIndex then r.minIndex else index + 1
  (index * r.channelCnt + r.channelUdp, nextIndex)

/-- `n` calls of `next_token` from the static's value `nextIndex`: the tokens handed
out, in order, and the static's value after them. -/
def nextTokens (r : TokenRange) : Nat → Nat → List Nat × Nat
  | nextIndex, 0 => ([], nextIndex)
  | nextIndex, n + 1 =>
    let call := nextToken r nextIndex
    let rest := nextTokens r call.2 n
    (call.1 :: rest.1, rest.2)

namespace TokenRange

variable (r : TokenRange)

/-- The token of an index. -/
def token (index : Nat) : Nat := index * r.channelCnt + r.channelUdp

/-- The index `next_token` hands out `i` calls after it handed out `start`. -/
def indexAfter (start i : Nat) : Nat :=
  r.minIndex + (start - r.minIndex + i) % (r.maxIndex - r.minIndex)

theorem nextToken_fst (index : Nat) : (nextToken r index).1 = r.token index := rfl

theorem token_injective {a b : Nat} (h : r.token a = r.token b) : a = b :=
  Nat.eq_of_mul_eq_mul_right (by have := r.udp_lt_cnt; omega) (Nat.add_right_cancel h)

variable {r} {start : Nat}

theorem indexAfter_zero (hs : r.minIndex ≤ start ∧ start < r.maxIndex) :
    r.indexAfter start 0 = start := by
  unfold indexAfter
  rw [Nat.add_zero, Nat.mod_eq_of_lt (by omega)]
  omega

theorem indexAfter_mem (i : Nat) : r.minIndex ≤ r.indexAfter start i ∧ r.indexAfter start i < r.maxIndex := by
  have := Nat.mod_lt (start - r.minIndex + i) (show 0 < r.maxIndex - r.minIndex by have := r.min_lt_max; omega)
  unfold indexAfter
  omega

theorem nextToken_snd (i : Nat) : (nextToken r (r.indexAfter start i)).2 = r.indexAfter start (i + 1) := by
  have hm : 0 < r.maxIndex - r.minIndex := by have := r.min_lt_max; omega
  unfold nextToken indexAfter
  dsimp only
  rw [show start - r.minIndex + (i + 1) = start - r.minIndex + i + 1 by omega]
  generalize start - r.minIndex + i = x
  have hlt := Nat.mod_lt x hm
  rw [Nat.add_mod_eq_ite (m := x) (n := 1)]
  rcases Nat.lt_or_ge 1 (r.maxIndex - r.minIndex) with h1 | h1
  · rw [Nat.mod_eq_of_lt h1]
    split_ifs <;> omega
  · rw [show r.maxIndex - r.minIndex = 1 by omega, Nat.mod_one, Nat.mod_one]
    split_ifs <;> omega

theorem indexAfter_injective {i j : Nat} (hi : i < r.maxIndex - r.minIndex)
    (hj : j < r.maxIndex - r.minIndex) (h : r.indexAfter start i = r.indexAfter start j) : i = j := by
  have hlt := Nat.mod_lt start (show 0 < r.maxIndex - r.minIndex by omega)
  unfold indexAfter at h
  rw [Nat.add_mod_eq_ite, Nat.add_mod_eq_ite, Nat.mod_eq_of_lt hi, Nat.mod_eq_of_lt hj] at h
  have hk : (start - r.minIndex) % (r.maxIndex - r.minIndex) < r.maxIndex - r.minIndex :=
    Nat.mod_lt _ (by omega)
  split_ifs at h <;> omega

theorem indexAfter_add_range (i : Nat) :
    r.indexAfter start (i + (r.maxIndex - r.minIndex)) = r.indexAfter start i := by
  unfold indexAfter
  rw [← Nat.add_assoc, Nat.add_mod_right]

theorem nextTokens_indexAfter (i n : Nat) :
    nextTokens r (r.indexAfter start i) n =
      ((List.range n).map fun j => r.token (r.indexAfter start (i + j)), r.indexAfter start (i + n)) := by
  induction n generalizing i with
  | zero => rfl
  | succ n ih =>
    rw [nextTokens, nextToken_snd, ih, nextToken_fst]
    simp [List.range_succ_eq_map, Function.comp_def, Nat.add_assoc, Nat.add_comm 1]

theorem tokens_nodup {n : Nat} (hn : n ≤ r.maxIndex - r.minIndex) :
    ((List.range n).map fun i => r.token (r.indexAfter start i)).Nodup :=
  (List.nodup_range n).map_on fun i hi j hj h =>
    indexAfter_injective (by simp at hi; omega) (by simp at hj; omega) (r.token_injective h)

theorem token_bounds {index : Nat} (h : r.minIndex ≤ index ∧ index < r.maxIndex) :
    r.token index < 2 ^ 64 ∧ r.token index % r.channelCnt = r.channelUdp ∧
      ∀ index' channel, channel < r.channelCnt → channel ≠ r.channelUdp →
        r.token index ≠ index' * r.channelCnt + channel := by
  have hudp := r.udp_lt_cnt
  have hmod : r.token index % r.channelCnt = r.channelUdp := by
    rw [token, Nat.mul_add_mod', Nat.mod_eq_of_lt hudp]
  refine ⟨Nat.lt_of_le_of_lt ?_ r.fits, hmod, fun index' channel hc hne heq => hne ?_⟩
  · exact Nat.add_le_add_right (Nat.mul_le_mul_right _ (by omega)) _
  · rw [← Nat.mod_eq_of_lt hc, ← Nat.mul_add_mod' index', ← heq, hmod]

end TokenRange

/-- From `MIN_INDEX`, `NEXT_INDEX` stays in range, every token is a UDP-channel `usize`, and any
`MAX_INDEX - MIN_INDEX` calls in a row hand out distinct tokens. -/
theorem next_token_in_range (r : TokenRange) (n : Nat) :
    let calls := nextTokens r r.minIndex n
    (r.minIndex ≤ calls.2 ∧ calls.2 < r.maxIndex) ∧
    (∀ t ∈ calls.1, ∃ index, r.minIndex ≤ index ∧ index < r.maxIndex ∧
      t = index * r.channelCnt + r.channelUdp ∧ t < 2 ^ 64 ∧ t % r.channelCnt = r.channelUdp ∧
      ∀ index' channel, channel < r.channelCnt → channel ≠ r.channelUdp →
        t ≠ index' * r.channelCnt + channel) ∧
    (nextTokens r calls.2 (r.maxIndex - r.minIndex)).1.Nodup := by
  have hmin : r.minIndex ≤ r.minIndex ∧ r.minIndex < r.maxIndex := ⟨Nat.le_refl _, r.min_lt_max⟩
  have hcalls := @TokenRange.nextTokens_indexAfter r r.minIndex 0 n
  rw [r.indexAfter_zero hmin, Nat.zero_add] at hcalls
  have hnext := @TokenRange.nextTokens_indexAfter r (r.indexAfter r.minIndex n) 0 (r.maxIndex - r.minIndex)
  rw [r.indexAfter_zero (r.indexAfter_mem n)] at hnext
  simp only [hcalls, hnext, Nat.zero_add, List.mem_map, List.mem_range]
  refine ⟨r.indexAfter_mem n, ?_, r.tokens_nodup (Nat.le_refl _)⟩
  rintro _ ⟨i, -, rfl⟩
  exact ⟨_, (r.indexAfter_mem i).1, (r.indexAfter_mem i).2, rfl, r.token_bounds (r.indexAfter_mem i)⟩

/-- With indices in `[1, 3)` and four channels, the third call hands out the first token again. -/
example : (nextTokens ⟨1, 3, 4, 2, by decide, by decide, by decide⟩ 1 3).1 = [6, 10, 6] := rfl

end TrojanRs
