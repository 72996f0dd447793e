import Bluesafe.Ops.SubscribeRate

/-!
# How many messages a bucket lets through

A bucket remembers the largest reading of its clock, so a clock that stands still or goes back adds
no token. A call costs what it takes: its success and the tokens it leaves are paid by the tokens
before it and by the growth of the largest reading (`tryConsume_pays`). Over a block of calls the
tokens in front of it are at most the capacity.
-/

namespace Bluesafe.Ops.TokenBucket

/-- The largest reading of the clock. -/
def runningMax (start : ℚ) (times : List ℚ) : ℚ := times.foldl max start

/-- What the running maximum grows by from the first call of a block to its last; `m` is the
    maximum in front of the block. -/
def growth (m : ℚ) : List ℚ → ℚ
  | [] => 0
  | now :: times => runningMax (max m now) times - max m now

theorem runningMax_cons (start now : ℚ) (times : List ℚ) :
    runningMax start (now :: times) = runningMax (max start now) times := rfl

/-- A bucket with a positive rate whose tokens are in range. -/
structure Sound (b : TokenBucket) : Prop where
  capacity_nonneg : 0 ≤ b.capacity
  rate_pos : 0 < b.refillPerSec
  tokens_nonneg : 0 ≤ b.tokens
  tokens_le : b.tokens ≤ b.capacity

variable {b : TokenBucket} {now : ℚ}

/-- The tokens a growth of the clock is worth. -/
def worth (b : TokenBucket) (ms : ℚ) : ℚ := b.refillPerSec * (ms / 1000)

theorem worth_nonneg (h : b.Sound) {ms : ℚ} (hms : 0 ≤ ms) : 0 ≤ b.worth ms := by
  have hrate := h.rate_pos
  unfold worth
  positivity

/-- What a refill does: the clock is the larger reading, and no more is added than it is worth. -/
theorem refill_spec (h : b.Sound) (now : ℚ) :
    (b.refill now).Sound ∧ (b.refill now).capacity = b.capacity ∧
      (b.refill now).refillPerSec = b.refillPerSec ∧
      (b.refill now).lastRefillMs = max b.lastRefillMs now ∧
      (b.refill now).tokens ≤ b.tokens + b.worth (max b.lastRefillMs now - b.lastRefillMs) := by
  obtain ⟨hcapacity, hrate, hnonneg, hle⟩ := h
  unfold refill
  dsimp only
  split
  · rename_i hforward
    -- the clock has gone forward: the reading is the new maximum
    have hlt : b.lastRefillMs < now := by
      have hpos := hforward.1
      by_contra hback
      have hneg : (now - b.lastRefillMs) / 1000 ≤ 0 :=
        div_nonpos_of_nonpos_of_nonneg (by linarith) (by norm_num)
      linarith
    have hmul : 0 ≤ (now - b.lastRefillMs) / 1000 * b.refillPerSec :=
      mul_nonneg (le_of_lt hforward.1) (le_of_lt hrate)
    refine ⟨⟨hcapacity, hrate, ?_, min_le_left _ _⟩, rfl, rfl, (max_eq_right (le_of_lt hlt)).symm, ?_⟩
    · exact le_min hcapacity (by linarith)
    · rw [max_eq_right (le_of_lt hlt)]
      unfold worth
      rw [mul_comm b.refillPerSec]
      exact min_le_right _ _
  · rename_i hstill
    -- the rate is positive, so the clock has not gone forward
    have hback : now ≤ b.lastRefillMs := by
      by_contra hforward
      apply hstill
      exact ⟨div_pos (by linarith) (by norm_num), hrate⟩
    refine ⟨⟨hcapacity, hrate, hnonneg, hle⟩, rfl, rfl, (max_eq_left hback).symm, ?_⟩
    rw [max_eq_left hback]
    unfold worth
    linarith

/-- What a call does: its success and the tokens it leaves are paid by those before it and by the
    growth of the clock, and they are at most the capacity. -/
theorem tryConsume_spec (h : b.Sound) (now : ℚ) :
    (b.tryConsume now).2.Sound ∧ (b.tryConsume now).2.capacity = b.capacity ∧
      (b.tryConsume now).2.refillPerSec = b.refillPerSec ∧
      (b.tryConsume now).2.lastRefillMs = max b.lastRefillMs now ∧
      ((b.tryConsume now).1.toNat : ℚ) + (b.tryConsume now).2.tokens ≤
        b.tokens + b.worth (max b.lastRefillMs now - b.lastRefillMs) ∧
      ((b.tryConsume now).1.toNat : ℚ) + (b.tryConsume now).2.tokens ≤ b.capacity := by
  obtain ⟨hsound, hcapacity, hrate, hclock, hworth⟩ := refill_spec h now
  have hle := hsound.tokens_le
  rw [hcapacity] at hle
  unfold tryConsume
  dsimp only
  split
  · rename_i hone
    have hone' : (1 : ℚ) - 1 ≤ (b.refill now).tokens - 1 := by linarith
    refine ⟨⟨hsound.capacity_nonneg, hsound.rate_pos, by linarith, ?_⟩, hcapacity, hrate, hclock,
      ?_, ?_⟩
    · have hrefilled := hsound.tokens_le
      dsimp only
      linarith
    · simp only [Bool.toNat_true, Nat.cast_one]
      linarith
    · simp only [Bool.toNat_true, Nat.cast_one]
      linarith
  · refine ⟨hsound, hcapacity, hrate, hclock, ?_, ?_⟩
    · simp only [Bool.toNat_false, Nat.cast_zero, zero_add]
      exact hworth
    · simp only [Bool.toNat_false, Nat.cast_zero, zero_add]
      exact hle

/-- Calls leave the bucket sound, with the largest reading of the clock. -/
theorem after_spec (h : b.Sound) (times : List ℚ) :
    (b.after times).Sound ∧ (b.after times).capacity = b.capacity ∧
      (b.after times).refillPerSec = b.refillPerSec ∧
      (b.after times).lastRefillMs = runningMax b.lastRefillMs times := by
  induction times generalizing b with
  | nil => exact ⟨h, rfl, rfl, rfl⟩
  | cons now times ih =>
    obtain ⟨hsound, hcapacity, hrate, hclock, -⟩ := tryConsume_spec h now
    obtain ⟨hafter, hcapacity', hrate', hclock'⟩ := ih hsound
    refine ⟨hafter, hcapacity'.trans hcapacity, hrate'.trans hrate, ?_⟩
    rw [runningMax_cons, ← hclock]
    exact hclock'

/-- The successes of a sequence of calls are paid by the tokens in front of it and the growth of the
    clock. -/
theorem successes_le (h : b.Sound) (times : List ℚ) :
    (b.successes times : ℚ) ≤
      b.tokens + b.worth (runningMax b.lastRefillMs times - b.lastRefillMs) := by
  induction times generalizing b with
  | nil =>
    have htokens := h.tokens_nonneg
    have hworth := worth_nonneg h (le_of_eq (sub_self b.lastRefillMs).symm)
    simp only [successes, Nat.cast_zero]
    exact add_nonneg htokens hworth
  | cons now times ih =>
    obtain ⟨hsound, -, hrate, hclock, hpays, -⟩ := tryConsume_spec h now
    have hrest := ih hsound
    -- the growth of the clock is that of this call and that of the rest
    unfold worth at hrest hpays ⊢
    rw [hrate, hclock] at hrest
    rw [successes, Nat.cast_add, runningMax_cons]
    linarith

/-- A block of calls, wherever the bucket stands: its first call leaves no more than the capacity. -/
theorem successes_block_le (h : b.Sound) (block : List ℚ) :
    (b.successes block : ℚ) ≤ b.capacity + b.worth (growth b.lastRefillMs block) := by
  cases block with
  | nil =>
    have hcapacity := h.capacity_nonneg
    have hworth := worth_nonneg h (le_refl 0)
    simp only [successes, growth, Nat.cast_zero]
    exact add_nonneg hcapacity hworth
  | cons now times =>
    -- the first call is paid by the capacity, the others by the growth of the clock
    obtain ⟨hsound, -, hrate, hclock, -, hcap⟩ := tryConsume_spec h now
    have hrest := successes_le hsound times
    unfold worth at hrest ⊢
    rw [hrate, hclock] at hrest
    rw [successes, Nat.cast_add, growth]
    linarith

theorem sound_new {capacity rate : ℚ} (hcapacity : 1 ≤ capacity) (hrate : 0 < rate) (start : ℚ) :
    (new capacity rate start).Sound where
  capacity_nonneg := by
    show 0 ≤ capacity
    linarith
  rate_pos := hrate
  tokens_nonneg := by
    show 0 ≤ capacity
    linarith
  tokens_le := le_refl capacity

/-- The tokens stay between zero and the capacity, and no block of calls has more successes than the
    capacity and what the clock has grown by over the block. -/
theorem token_bucket_bounds (capacity rate start : ℚ) (hcapacity : 1 ≤ capacity) (hrate : 0 < rate)
    (before block : List ℚ) :
    (0 ≤ ((new capacity rate start).after before).tokens ∧
      ((new capacity rate start).after before).tokens ≤ capacity) ∧
    (((new capacity rate start).after before).successes block : ℚ) ≤
      capacity + rate * (growth (runningMax start before) block / 1000) := by
  obtain ⟨hsound, hcap, hrate', hclock⟩ := after_spec (sound_new hcapacity hrate start) before
  have hblock := successes_block_le hsound block
  have hle := hsound.tokens_le
  rw [hcap] at hle hblock
  unfold worth at hblock
  rw [hrate', hclock] at hblock
  exact ⟨⟨hsound.tokens_nonneg, hle⟩, hblock⟩

theorem token_bucket_bounds_two :
    (0 ≤ ((new 2 1 0).after [500, 100]).tokens ∧ ((new 2 1 0).after [500, 100]).tokens ≤ 2) ∧
    (((new 2 1 0).after [500, 100]).successes [600, 50, 1600] : ℚ) ≤
      2 + 1 * (growth (runningMax 0 [500, 100]) [600, 50, 1600] / 1000) :=
  token_bucket_bounds 2 1 0 (by norm_num) (by norm_num) [500, 100] [600, 50, 1600]

/-- The bound is reached. -/
example : (new 2 1 0).successes [0, 0, 1000, 500] = 3 := by decide +kernel

end Bluesafe.Ops.TokenBucket
