import ExecutionNode.Payload.Attributes
import ExecutionNode.Proofs.Withdrawal.Reading

/-!
# What the name of a payload tells of its request

The parts of a request are put behind each other without any marks between them.  All but the last
are of a fixed size, and the last is either missing or a list, which takes at least one octet.  So
the bytes that are hashed determine the request, and two requests can share a name only if the
hashes of different bytes begin alike.

* `withdrawalBytes_injective`: no withdrawals, an empty list of them and any two lists differ.
* `requestBytes_injective`: the bytes of a request determine it.
* `requests_told_apart`: when two requests have the same name.
-/

namespace ExecutionNode.PayloadAttributes

open Rlp

variable {parent other : Hash} {a b : PayloadAttributes}

/-- The withdrawals of a request are told apart, and so is that there can be none. -/
theorem withdrawalBytes_injective (h : a.withdrawalBytes = b.withdrawalBytes) :
    a.withdrawals = b.withdrawals := by
  unfold withdrawalBytes at h
  generalize a.withdrawals = withdrawals, b.withdrawals = others at h ⊢
  cases withdrawals with
  | none => cases others with
    | none => rfl
    | some others => exact absurd h.symm (Item.encode_ne_nil _)
  | some withdrawals => cases others with
    | none => exact absurd h (Item.encode_ne_nil _)
    | some others =>
      simp only [Item.encode_list] at h
      rw [Withdrawal.encodeAll_injective (list_injective h)]

/-- **The bytes of a request determine the request.** -/
theorem requestBytes_injective (h : a.requestBytes parent = b.requestBytes other) :
    parent = other ∧ a = b := by
  simp only [requestBytes, List.append_assoc] at h
  -- The parts of a fixed size are taken off one by one.
  have hsize {n : Nat} (x y : FixedBytes n) : x.toList.length = y.toList.length := by
    rw [x.length_toList, y.length_toList]
  obtain ⟨hparent, h⟩ := List.append_inj h (hsize parent other)
  obtain ⟨htimestamp, h⟩ := List.append_inj h (hsize _ _)
  obtain ⟨hrandao, h⟩ := List.append_inj h (hsize a.prevRandao b.prevRandao)
  obtain ⟨hrecipient, h⟩ :=
    List.append_inj h (hsize a.suggestedFeeRecipient b.suggestedFeeRecipient)
  have hwithdrawals := withdrawalBytes_injective h
  refine ⟨FixedBytes.ext_toList hparent, ?_⟩
  cases a
  cases b
  rw [mk.injEq]
  exact ⟨bytesOfUInt64_injective htimestamp, FixedBytes.ext_toList hrandao,
    FixedBytes.ext_toList hrecipient, hwithdrawals⟩

/-- **Names tell requests apart as far as hashes do.**

* Two requests are hashed as the same bytes exactly if parent, time, random value, recipient and
  withdrawals agree, where no withdrawals differ from an empty list of them.
* The name is the beginning of the hash of these bytes, and nothing else takes part in it.
* So a name is shared exactly by a request with itself, and by different requests whose different
  bytes have hashes that begin with the same eight octets. -/
theorem requests_told_apart (parent other : Hash) (a b : PayloadAttributes) :
    (a.requestBytes parent = b.requestBytes other ↔ parent = other ∧ a = b) ∧
      (a.payloadId parent).toList = (keccak256 (a.requestBytes parent)).toList.take 8 ∧
      (a.payloadId parent = b.payloadId other ↔
        (parent = other ∧ a = b) ∨
          (a.requestBytes parent ≠ b.requestBytes other ∧
            (keccak256 (a.requestBytes parent)).toList.take 8 =
              (keccak256 (b.requestBytes other)).toList.take 8)) := by
  have hbytes : a.requestBytes parent = b.requestBytes other ↔ parent = other ∧ a = b :=
    ⟨requestBytes_injective, fun ⟨hparent, hattributes⟩ => by rw [hparent, hattributes]⟩
  refine ⟨hbytes, rfl, ?_, ?_⟩
  · intro hname
    rcases Classical.em (a.requestBytes parent = b.requestBytes other) with hsame | hne
    · exact .inl (hbytes.mp hsame)
    · exact .inr ⟨hne, congrArg FixedBytes.toList hname⟩
  · rintro (⟨rfl, rfl⟩ | ⟨-, hbegin⟩)
    · rfl
    · exact FixedBytes.ext_toList hbegin

end ExecutionNode.PayloadAttributes
