import ExecutionNode.Proofs.Transaction.Acceptance
import ExecutionNode.Simulation.Fixtures

/-!
# Sample chains are chains

What the sample chains are used for rests on their form, not on what they hold.

* `sampleTransfers_eq`: every sample transfer can be read, so none is left out.
* `sampleHeaders_chain`: sample headers have successive numbers, stand on top of each other, have
  their own hashes and get younger.
* `sampleBlocks_chain`: so do the headers of sample blocks, and they commit to the transactions.

Both kinds of chain are made by one recursion (`chain`), and the lemmas about it serve both.
-/

namespace ExecutionNode

open Rlp

/-! ### Transfers -/

namespace Transaction.Legacy

/-- The strings that a legacy transaction is written as. -/
def strings (t : Legacy) : List Bytes :=
  [minimalBE t.nonce.toNat, minimalBE t.gasPrice.toNat, minimalBE t.gasLimit.toNat,
    (t.recipient.map FixedBytes.toList).getD [], minimalBE t.value.toNat, t.data,
    minimalBE (legacyMark t.chainId t.signature.yParity), minimalBE t.signature.r.toNat,
    minimalBE t.signature.s.toNat]

theorem toItem_eq_map_strings (t : Legacy) : t.toItem = .list (t.strings.map .str) := by
  rw [toItem, strings]
  cases t.recipient <;> rfl

/-- None of the strings is longer than a wide number, unless the input is. -/
theorem length_of_mem_strings {t : Legacy} (h : t.data.length ≤ 32) :
    ∀ s ∈ t.strings, s.length ≤ 32 := by
  have hword (n : UInt64) : natSize n.toNat ≤ 32 :=
    Nat.le_trans (natSize_le_eight n.toNat_lt) (by decide)
  have hprice (n : U128) : natSize n.toNat ≤ 32 :=
    natSize_le_iff.mpr (Nat.lt_of_lt_of_le n.isLt (by decide))
  have hmark := Nat.le_trans (natSize_legacyMark_le t.chainId t.signature.yParity)
    (by decide : 16 ≤ 32)
  have hrecipient : ((t.recipient.map FixedBytes.toList).getD []).length ≤ 32 := by
    cases t.recipient with
    | none => decide
    | some a => simp [a.length_toList]
  simp [strings, hword, hprice, hmark, hrecipient, h, natSize_toNat_le]

/-- A legacy transaction with a short input can be announced. -/
theorem fits_toItem {t : Legacy} (h : t.data.length ≤ 32) : t.toItem.Fits := by
  have hlength : (t.strings.flatMap bytes).length ≤ 9 * (1 + 32 + 32) :=
    length_flatMap_bytes_le (length_of_mem_strings h)
  rw [toItem_eq_map_strings, Item.fits_list, encodeAll_map_str]
  exact Nat.lt_of_le_of_lt hlength (by decide)

end Transaction.Legacy

namespace Simulation

open Transaction

/-- A transfer as it arrives. -/
def arrived (n : Nat) : Envelope :=
  ⟨.legacy, keccak256 (sampleTransfer n).encode, (sampleTransfer n).encode⟩

/-- What arrives encloses the transfer. -/
theorem encloses_arrived (n : Nat) : (arrived n).Encloses (sampleTransfer n) where
  kind := rfl
  fits := Legacy.fits_toItem (Nat.zero_le _)
  raw := (sampleTransfer n).encode_eq_canonical
  hash := congrArg keccak256 (sampleTransfer n).encode_eq_canonical

/-- **No sample transfer is left out**, and each is read as what it is. -/
theorem sampleTransfers_eq (count : Nat) :
    sampleTransfers count = (List.range count).map arrived := by
  have hread (n : Nat) : Envelope.decode (sampleTransfer n).encode = .ok (arrived n) :=
    Envelope.decode_eq_ok_iff.mpr ⟨rfl, _, encloses_arrived n⟩
  simp only [sampleTransfers, hread, Except.toOption, List.filterMap_eq_map']

/-! ### Chains -/

section chain

variable {α : Type} {make : UInt64 → Hash → α} {hash : α → Hash}

theorem length_chain (start : UInt64) (head : Hash) (count : Nat) :
    (chain make hash start head count).length = count := by
  induction count generalizing start head with
  | zero => rfl
  | succ count ih => exact congrArg (· + 1) (ih _ _)

/-- All of a chain is made in the same way. -/
theorem forall_mem_chain {p : α → Prop} (h : ∀ number parent, p (make number parent))
    (start : UInt64) (head : Hash) (count : Nat) : ∀ a ∈ chain make hash start head count, p a := by
  induction count generalizing start head with
  | zero => exact nofun
  | succ count ih => exact List.forall_mem_cons.mpr ⟨h _ _, ih _ _⟩

/-- What depends on the number alone goes through the numbers from the first one on. -/
theorem map_chain {β : Type} (f : α → β) {ofNumber : UInt64 → β}
    (h : ∀ number parent, f (make number parent) = ofNumber number)
    (start : UInt64) (head : Hash) (count : Nat) :
    (chain make hash start head count).map f =
      (List.range count).map fun i => ofNumber (start + UInt64.ofNat i) := by
  induction count generalizing start head with
  | zero => rfl
  | succ count ih =>
    rw [chain, List.map_cons, ih, h, List.range_succ_eq_map, List.map_cons, List.map_map]
    have hfirst : start = start + UInt64.ofNat 0 := (UInt64.add_zero start).symm
    refine congrArg₂ List.cons (congrArg ofNumber hfirst) (List.map_congr_left fun i _ => ?_)
    have hnext : start + 1 + UInt64.ofNat i = start + UInt64.ofNat (i + 1) := by
      rw [UInt64.ofNat_add, UInt64.add_assoc, UInt64.add_comm 1]
      rfl
    exact congrArg ofNumber hnext

/-- Each member of a chain stands on top of the one before, if it is made so. -/
theorem areLinked_chain {header : α → SealedHeader}
    (hparent : ∀ number parent, (header (make number parent)).header.parentHash = parent)
    (hhash : ∀ number parent, (header (make number parent)).hash = hash (make number parent))
    (start : UInt64) (head : Hash) (count : Nat) :
    areLinked head ((chain make hash start head count).map header) = true := by
  induction count generalizing start head with
  | zero => rfl
  | succ count ih =>
    rw [chain, List.map_cons, areLinked, hparent, hhash, ih, beq_self_eq_true, Bool.and_self]

/-- Each member of a chain is younger than those before it, as long as the time of the last can be
written. -/
theorem pairwise_lt_chain (time : α → UInt64)
    (htime : ∀ number parent, time (make number parent) = sampleTime number) {start : UInt64}
    {count : Nat} (h : 1700000000 + 12 * (start.toNat + count) ≤ UInt64.size) (head : Hash) :
    (chain make hash start head count).Pairwise fun a b => time a < time b := by
  have htoNat {i : Nat} (hi : i ∈ List.range count) :
      (sampleTime (start + UInt64.ofNat i)).toNat = 1700000000 + 12 * (start.toNat + i) := by
    rw [List.mem_range] at hi
    rw [UInt64.size] at h
    simp only [sampleTime, UInt64.toNat_add, UInt64.toNat_mul, UInt64.toNat_ofNat',
      UInt64.reduceToNat]
    omega
  rw [← List.pairwise_map, map_chain time htime, List.pairwise_map]
  refine List.pairwise_lt_range.imp_of_mem fun hi hj hlt => ?_
  rw [UInt64.lt_iff_toNat_lt, htoNat hi, htoNat hj]
  omega

end chain

/-- **Sample headers are a chain** on top of what they are given. They are as many as were asked
for, their numbers are successive, each stands on top of the one before, and each has its own
hash. Each is younger than those before it, as long as the time of the last can be written. -/
theorem sampleHeaders_chain (start : UInt64) (head : Hash) (count : Nat) :
    let headers := sampleHeaders start head count
    headers.length = count ∧
      headers.map (·.number) = ((List.range count).map fun i => start + UInt64.ofNat i) ∧
      areLinked head headers = true ∧ (∀ h ∈ headers, h.hasValidHash = true) ∧
      (1700000000 + 12 * (start.toNat + count) ≤ UInt64.size →
        headers.Pairwise fun a b => a.header.timestamp < b.header.timestamp) := by
  have hnumber (number : UInt64) (parent : Hash) :
      (sampleHeader number parent).sealed.number = number := rfl
  have htime (number : UInt64) (parent : Hash) :
      (sampleHeader number parent).sealed.header.timestamp = sampleTime number := rfl
  have hvalid (number : UInt64) (parent : Hash) :
      (sampleHeader number parent).sealed.hasValidHash = true := Header.hasValidHash_sealed _
  have hlinked : areLinked head ((sampleHeaders start head count).map fun h => h) = true :=
    areLinked_chain (fun _ _ => rfl) (fun _ _ => rfl) start head count
  rw [List.map_id'] at hlinked
  exact ⟨length_chain .., map_chain SealedHeader.number hnumber .., hlinked,
    forall_mem_chain hvalid start head count,
    (pairwise_lt_chain (fun h : SealedHeader => h.header.timestamp) htime · head)⟩

/-- **Sample blocks are a chain** like sample headers, with one transaction each, to which their
headers commit. -/
theorem sampleBlocks_chain (start : UInt64) (head : Hash) (count : Nat) :
    let blocks := sampleBlocks start head count
    blocks.length = count ∧
      blocks.map (·.header.number) = ((List.range count).map fun i => start + UInt64.ofNat i) ∧
      areLinked head (blocks.map (·.header)) = true ∧
      (∀ b ∈ blocks, b.header.hasValidHash = true ∧ b.transactions.length = 1 ∧
        b.header.header.transactionsRoot = Transaction.root b.transactions) ∧
      (1700000000 + 12 * (start.toNat + count) ≤ UInt64.size →
        blocks.Pairwise fun a b => a.header.header.timestamp < b.header.header.timestamp) := by
  have hnumber (number : UInt64) (parent : Hash) :
      (sampleBlock number parent 1).header.number = number := rfl
  have htime (number : UInt64) (parent : Hash) :
      (sampleBlock number parent 1).header.header.timestamp = sampleTime number := rfl
  have hone (number : UInt64) (parent : Hash) :
      (sampleBlock number parent 1).transactions.length = 1 := by
    show (sampleTransfers 1).length = 1
    rw [sampleTransfers_eq]
    rfl
  exact ⟨length_chain .., map_chain (fun b : Block => b.header.number) hnumber ..,
    areLinked_chain (fun _ _ => rfl) (fun _ _ => rfl) ..,
    forall_mem_chain (fun number parent =>
      ⟨Header.hasValidHash_sealed _, hone number parent, rfl⟩) start head count,
    (pairwise_lt_chain (fun b : Block => b.header.header.timestamp) htime · head)⟩

end Simulation

end ExecutionNode
