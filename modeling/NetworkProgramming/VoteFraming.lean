import NetworkProgramming.DelimFramer
import NetworkProgramming.LengthFramer
import NetworkProgramming.VoteEncodingBin
import NetworkProgramming.VoteEncodingText

/-!
The vote programs are linked with one encoding and one framer. Whether a message
of the one goes through the other is a matter of the bytes that can be in it.
-/

namespace NetworkProgramming.VoteFraming

open CText Framer VoteProtocol

inductive EncodingFile where
  | voteEncodingText
  | voteEncodingBin
  deriving DecidableEq

inductive FramerFile where
  | delimFramer
  | lengthFramer
  deriving DecidableEq

def EncodingFile.encoding : EncodingFile → VoteEncoding
  | .voteEncodingText => VoteEncodingText.encoding
  | .voteEncodingBin => VoteEncodingBin.encoding

def FramerFile.framer : FramerFile → Framer
  | .delimFramer => DelimFramer.framer
  | .lengthFramer => LengthFramer.framer

def EncodingFile.wire : EncodingFile → VoteInfo → List UInt8
  | .voteEncodingText => VoteEncodingText.wire
  | .voteEncodingBin => VoteEncodingBin.wire

theorem encode_message (encoding : EncodingFile) (v : VoteInfo) (valid : v.Valid)
    (outBuf : Nat → UInt8) :
    ∃ e, encoding.encoding.encode v MAX_WIRE_SIZE = .ok e ∧
      e.message outBuf = encoding.wire v := by
  cases encoding with
  | voteEncodingText => exact ⟨_, rfl, VoteEncodingText.encode_message v valid outBuf⟩
  | voteEncodingBin => exact VoteEncodingBin.encode_message v outBuf

theorem wire_length (encoding : EncodingFile) (v : VoteInfo) (valid : v.Valid) :
    (encoding.wire v).length ≤ 36 := by
  cases encoding with
  | voteEncodingText => exact VoteEncodingText.wire_length v valid
  | voteEncodingBin => exact Nat.le_trans (VoteEncodingBin.wire_length v) (by decide)

theorem wire_newline_free (encoding : EncodingFile) (v : VoteInfo) (valid : v.Valid) :
    newline ∉ encoding.wire v ↔
      (encoding = .voteEncodingBin → VoteEncodingBin.NewlineFree v) := by
  cases encoding with
  | voteEncodingText => simp [EncodingFile.wire, VoteEncodingText.newline_not_wire]
  | voteEncodingBin => simp [EncodingFile.wire, VoteEncodingBin.newline_wire v valid]

/-- What Encode leaves in outBuf goes through the framer, but for a binary message
with a newline byte and the framer that ends messages there. -/
theorem vote_message_carried (encoding : EncodingFile) (framer : FramerFile) (v : VoteInfo)
    (valid : v.Valid) (outBuf : Nat → UInt8) :
    ∃ e, encoding.encoding.encode v MAX_WIRE_SIZE = .ok e ∧
      (framer.framer.Carries MAX_WIRE_SIZE (e.message outBuf) ↔
        (encoding = .voteEncodingBin → framer = .delimFramer → VoteEncodingBin.NewlineFree v)) := by
  obtain ⟨e, encoded, message⟩ := encode_message encoding v valid outBuf
  have short := wire_length encoding v valid
  refine ⟨e, encoded, ?_⟩
  rw [message]
  cases framer with
  | delimFramer =>
      have counted : ((encoding.wire v).length : Int) ≤ INT_MAX := by
        rw [INT_MAX]
        omega
      have fits : (encoding.wire v).length < MAX_WIRE_SIZE := Nat.lt_of_le_of_lt short (by decide)
      refine (DelimFramer.delim_framer_carries MAX_WIRE_SIZE _ fits counted).trans ?_
      rw [wire_newline_free encoding v valid]
      exact ⟨fun free binary _ => free binary, fun free binary => free binary rfl⟩
  | lengthFramer =>
      have carried := LengthFramer.length_framer_carries MAX_WIRE_SIZE (encoding.wire v)
        (Nat.le_trans short (by decide)) (Nat.le_trans short (by decide))
      refine iff_of_true carried ?_
      intro _ other
      cases other

def tenth : VoteInfo := { count := 0, candidate := 10, isInquiry := false, isResponse := false }

theorem tenth_valid : tenth.Valid := ⟨by decide, fun _ => rfl⟩

theorem tenth_carried_as_text :
    ∃ e, EncodingFile.voteEncodingText.encoding.encode tenth MAX_WIRE_SIZE = .ok e ∧
      FramerFile.delimFramer.framer.Carries MAX_WIRE_SIZE (e.message fun _ => 0) := by
  obtain ⟨e, encoded, carried⟩ :=
    vote_message_carried .voteEncodingText .delimFramer tenth tenth_valid fun _ => 0
  refine ⟨e, encoded, carried.mpr ?_⟩
  intro binary
  cases binary

theorem tenth_rejected_in_binary :
    tenth.Valid ∧ ∃ e, EncodingFile.voteEncodingBin.encoding.encode tenth MAX_WIRE_SIZE = .ok e ∧
      e.message (fun _ => 0) = [0x54, 0, 0, 10] ∧
      FramerFile.delimFramer.framer.putMsg (e.message fun _ => 0) [] = .ok (-1, []) :=
  ⟨⟨by decide, fun _ => rfl⟩, _, rfl, by decide, by decide⟩

end NetworkProgramming.VoteFraming
