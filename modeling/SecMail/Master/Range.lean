import SecMail.Master.Step
import SecMail.Paging.Pager
import Mathlib.Algebra.Group.Nat.Defs

/-!
# The ranges of a load

`loadMsg:` computes with unsigned integers of `w` bits.  For a message count that is an `int` and
`w ≥ 32` nothing wraps around as long as the page asked for reaches beyond the list that is kept,
and the messages in the range are those of a page (`messages_fetchRange_of_keeps`,
`messages_fetchRange_of_not_keeps`).  If the page does not reach beyond that list, the length wraps
around, and the range leaves the mailbox (`real_fetchRange_iff`).
-/

namespace SecMail

variable {τ : Type*} {w : ℕ}

/-- The messages whose sequence numbers lie in the range; the first message has number 1. -/
def MCORange.messages (range : MCORange) (mailbox : List MCOIMAPMessage) : List MCOIMAPMessage :=
  (mailbox.take (range.location + range.length)).drop (range.location - 1)

/-- All sequence numbers of the range are those of a mailbox of `T` messages. -/
def MCORange.Real (range : MCORange) (T : ℕ) : Prop :=
  1 ≤ range.location ∧ range.location + range.length ≤ T

instance (range : MCORange) (T : ℕ) : Decidable (range.Real T) :=
  inferInstanceAs (Decidable (_ ∧ _))

/-- The range that a fetch asks for. -/
def Request.range : Request w → Option MCORange
  | .fetchMessages range => some range
  | _ => none

/-- Numbers of 32 bits are kept by integers of `w` bits. -/
theorem toNat_ofNat_of_lt (hw : 32 ≤ w) {n : ℕ} (hn : n < 2 ^ 32) :
    (BitVec.ofNat w n).toNat = n := by
  have hpow : 2 ^ 32 ≤ 2 ^ w := Nat.pow_le_pow_right (by decide) hw
  rw [BitVec.toNat_ofNat]
  exact Nat.mod_eq_of_lt (by omega)

theorem toNat_MIN (a b : BitVec w) : (MIN a b).toNat = min a.toNat b.toNat := by
  unfold MIN
  split_ifs with h
  · rw [BitVec.lt_def] at h
    omega
  · rw [BitVec.lt_def] at h
    omega

namespace Master

theorem toNat_messageCount (hw : 32 ≤ w) {n : BitVec 32} {T : ℕ} (h : n.toInt = T) :
    (messageCount (some n) : BitVec w).toNat = T ∧ T < 2 ^ 31 := by
  have hlt : n.toInt < 2 ^ 31 := BitVec.toInt_lt
  have hT : T < 2 ^ 31 := by omega
  have hmsb : n.msb = false := by
    rw [BitVec.msb_eq_toInt, h]
    simp
  have hn : n.toNat = T := by
    have := BitVec.toInt_eq_toNat_of_msb hmsb
    omega
  refine ⟨?_, hT⟩
  show (n.signExtend w).toNat = T
  rw [BitVec.signExtend_eq_setWidth_of_msb_false hmsb, BitVec.toNat_setWidth, hn]
  have hpow : 2 ^ 32 ≤ 2 ^ w := Nat.pow_le_pow_right (by decide) hw
  exact Nat.mod_eq_of_lt (by omega)

@[simp] theorem messageCount_none : (messageCount none : BitVec w) = 0 := by
  show (0#32).signExtend w = 0
  rw [BitVec.signExtend_eq_setWidth_of_msb_false (by decide)]
  simp

variable {m : Master τ w}

theorem keepsMsgs_iff {messageCount : BitVec w} : m.keepsMsgs messageCount = true ↔
    m.controller.countOfMsgInServer = messageCount ∧ m.controller.aryMsgs ≠ [] := by
  simp [keepsMsgs]

section FetchRange

variable {messageCount numberOfMsgToLoad : BitVec w} {mailbox : List MCOIMAPMessage}

theorem fetchRange_of_keeps (hk : m.keepsMsgs messageCount = true) :
    m.fetchRange messageCount numberOfMsgToLoad =
      MCORangeMake (messageCount - numberOfMsgToLoad + 1)
        (numberOfMsgToLoad - BitVec.ofNat w m.controller.aryMsgs.length - 1) :=
  if_pos hk

theorem fetchRange_of_not_keeps (hk : ¬ m.keepsMsgs messageCount = true) :
    m.fetchRange messageCount numberOfMsgToLoad =
      MCORangeMake (messageCount - numberOfMsgToLoad + 1) (numberOfMsgToLoad - 1) :=
  if_neg hk

/-- The first sequence number does not wrap around. -/
theorem toNat_location (hw : 32 ≤ w) (hT : messageCount.toNat < 2 ^ 31)
    (hn : numberOfMsgToLoad.toNat ≤ messageCount.toNat) :
    (messageCount - numberOfMsgToLoad + 1).toNat =
      messageCount.toNat - numberOfMsgToLoad.toNat + 1 := by
  have hpow : 2 ^ 32 ≤ 2 ^ w := Nat.pow_le_pow_right (by decide) hw
  have hone : (1 : BitVec w).toNat = 1 := toNat_ofNat_of_lt hw (by decide)
  have hsub := BitVec.toNat_sub_of_le (BitVec.le_def.2 hn)
  rw [BitVec.toNat_add_of_lt (by rw [hsub, hone]; omega), hsub, hone]

/-- Taking a smaller number and one off does not wrap around. -/
theorem toNat_length {count : BitVec w} (hw : 32 ≤ w)
    (hc : count.toNat < numberOfMsgToLoad.toNat) :
    (numberOfMsgToLoad - count - 1).toNat = numberOfMsgToLoad.toNat - count.toNat - 1 := by
  have hone : (1 : BitVec w).toNat = 1 := toNat_ofNat_of_lt hw (by decide)
  have hsub := BitVec.toNat_sub_of_le (BitVec.le_def.2 hc.le)
  rw [BitVec.toNat_sub_of_le (BitVec.le_def.2 (by rw [hsub, hone]; omega)), hsub, hone]

/-- Taking a larger number and one off wraps around to a huge length. -/
theorem toNat_length_of_le {count : BitVec w} (hw : 32 ≤ w)
    (hn : numberOfMsgToLoad.toNat < 2 ^ 31) (hc : numberOfMsgToLoad.toNat ≤ count.toNat) :
    (numberOfMsgToLoad - count - 1).toNat =
      2 ^ w - count.toNat + numberOfMsgToLoad.toNat - 1 := by
  have hpow : 2 ^ 32 ≤ 2 ^ w := Nat.pow_le_pow_right (by decide) hw
  have hone : (1 : BitVec w).toNat = 1 := toNat_ofNat_of_lt hw (by decide)
  have hlt : count.toNat < 2 ^ w := count.isLt
  rcases Nat.eq_or_lt_of_le hc with heq | hne
  · have hzero : numberOfMsgToLoad - count = 0#w := by
      rw [BitVec.eq_of_toNat_eq heq, BitVec.sub_self]
    rw [hzero, BitVec.toNat_sub, hone, BitVec.toNat_zero, Nat.mod_eq_of_lt (by omega)]
    omega
  · have hsub : (numberOfMsgToLoad - count).toNat =
        2 ^ w - count.toNat + numberOfMsgToLoad.toNat := by
      rw [BitVec.toNat_sub, Nat.mod_eq_of_lt (by omega)]
    rw [BitVec.toNat_sub_of_le (BitVec.le_def.2 (by rw [hsub, hone]; omega)), hsub, hone]

/-- The range is real exactly if the list is dropped or shorter than what is to be loaded. -/
theorem real_fetchRange_iff (hw : 32 ≤ w) (hT : messageCount.toNat < 2 ^ 31)
    (hn : numberOfMsgToLoad.toNat ≤ messageCount.toNat) (hpos : 0 < numberOfMsgToLoad.toNat) :
    (m.fetchRange messageCount numberOfMsgToLoad).Real messageCount.toNat ↔
      (m.keepsMsgs messageCount = true →
        (BitVec.ofNat w m.controller.aryMsgs.length).toNat < numberOfMsgToLoad.toNat) := by
  unfold MCORange.Real
  have hlocation := toNat_location hw hT hn
  have hone : (1 : BitVec w).toNat = 1 := toNat_ofNat_of_lt hw (by decide)
  by_cases hk : m.keepsMsgs messageCount = true
  · rw [fetchRange_of_keeps hk]
    simp only [MCORangeMake, hk, hlocation, true_imp_iff]
    have hlt := (BitVec.ofNat w m.controller.aryMsgs.length).isLt
    rcases Nat.lt_or_ge (BitVec.ofNat w m.controller.aryMsgs.length).toNat
      numberOfMsgToLoad.toNat with hc | hc
    · rw [toNat_length hw hc]
      omega
    · rw [toNat_length_of_le hw (by omega) hc]
      omega
  · have hlength : (numberOfMsgToLoad - 1).toNat = numberOfMsgToLoad.toNat - 1 := by
      rw [BitVec.toNat_sub_of_le (BitVec.le_def.2 (by rw [hone]; omega)), hone]
    rw [fetchRange_of_not_keeps hk]
    simp only [MCORangeMake, hlocation, hlength]
    exact ⟨fun _ hk' => absurd hk' hk, fun _ => by omega⟩

/-- A range that ends `c` messages before the newest one. -/
theorem messages_eq_page {T n c r : ℕ} (hT : mailbox.length = T) (hn : n = min T r) (hc : c < n) :
    (MCORange.mk (T - n + 1) (n - c - 1)).messages mailbox = page mailbox r c := by
  rw [page_eq_drop mailbox r c (by omega), hT]
  have h₁ : T - n + 1 + (n - c - 1) = T - c := by omega
  have h₂ : T - n + 1 - 1 = T - r := by omega
  show (mailbox.take (T - n + 1 + (n - c - 1))).drop (T - n + 1 - 1) = _
  rw [h₁, h₂]

variable {number : BitVec w}

theorem messages_fetchRange_of_keeps (hw : 32 ≤ w) (hT : messageCount.toNat = mailbox.length)
    (hlt : mailbox.length < 2 ^ 31) (hk : m.keepsMsgs messageCount = true)
    (hc : m.controller.aryMsgs.length < min mailbox.length number.toNat) :
    (m.fetchRange messageCount (MIN messageCount number)).messages mailbox =
      page mailbox number.toNat m.controller.aryMsgs.length := by
  have hn : (MIN messageCount number).toNat = min mailbox.length number.toNat := by
    rw [toNat_MIN, hT]
  have hcount := toNat_ofNat_of_lt hw (n := m.controller.aryMsgs.length) (by omega)
  rw [fetchRange_of_keeps hk, MCORangeMake, toNat_location hw (by omega) (by omega),
    toNat_length hw (by omega), hcount, hT, hn]
  exact messages_eq_page rfl rfl hc

theorem messages_fetchRange_of_not_keeps (hw : 32 ≤ w) (hT : messageCount.toNat = mailbox.length)
    (hlt : mailbox.length < 2 ^ 31) (hk : ¬ m.keepsMsgs messageCount = true)
    (hc : 0 < min mailbox.length number.toNat) :
    (m.fetchRange messageCount (MIN messageCount number)).messages mailbox =
      page mailbox number.toNat 0 := by
  have hn : (MIN messageCount number).toNat = min mailbox.length number.toNat := by
    rw [toNat_MIN, hT]
  have hzero : MIN messageCount number - 1 = MIN messageCount number - 0 - 1 := by simp
  have hlength : (MIN messageCount number - 0 - 1).toNat =
      min mailbox.length number.toNat - 0 - 1 := by
    rw [toNat_length hw (by rw [hn]; simpa using hc), hn]
    rfl
  rw [fetchRange_of_not_keeps hk, MCORangeMake, hzero, hlength,
    toNat_location hw (by omega) (by omega), hT, hn]
  exact messages_eq_page rfl rfl hc

end FetchRange

end Master

end SecMail
