import Bourse.Proofs.Classify.Stages
import Bourse.Proofs.Text.Boundary
import Bourse.Proofs.Text.Utf8

/-! # The length of messages

A message and the preview of a body are cut at the last boundary within their limit, so that they
keep the longest prefix of whole characters (`Error.exists_truncate`, `Response.preview_longest`).
What fits at the start of a message is there after the cut as well (`Error.prefix_truncate`), such
as the venue, with which the messages of the classifier start (`messages_keep_whole_characters`). -/

namespace Bourse

open Text

variable {message p : String}

/-! ### Messages -/

namespace Error

theorem truncate_of_le (h : message.utf8ByteSize ≤ 1024) : truncate message = message := by
  rw [truncate, byteLength_toList]
  exact if_pos h

/-- **A long message** keeps its longest prefix that fits, and gets a mark. -/
theorem exists_truncate (h : 1024 < message.utf8ByteSize) :
    ∃ start, IsLongestPrefix 1024 message start ∧
      truncate message = start ++ "... (truncated)" := by
  refine ⟨takeBytes 1024 message, isLongestPrefix_takeBytes 1024 message, ?_⟩
  rw [truncate, byteLength_toList]
  exact if_neg (not_le.2 h)

/-- No message is longer than the limit and the mark. -/
theorem utf8ByteSize_truncate_le (message : String) :
    (truncate message).utf8ByteSize ≤ 1024 + "... (truncated)".utf8ByteSize := by
  rcases le_or_gt message.utf8ByteSize 1024 with h | h
  · rw [truncate_of_le h]
    exact Nat.le_add_right_of_le h
  · obtain ⟨start, hstart, heq⟩ := exists_truncate h
    rw [heq, String.utf8ByteSize_append]
    exact Nat.add_le_add_right hstart.fits _

/-- A prefix within the limit outlives the cut. -/
theorem prefix_truncate (hp : p.toList <+: message.toList) (hfits : p.utf8ByteSize ≤ 1024) :
    p.toList <+: (truncate message).toList := by
  rcases le_or_gt message.utf8ByteSize 1024 with h | h
  · rwa [truncate_of_le h]
  · obtain ⟨start, hstart, heq⟩ := exists_truncate h
    rw [heq, String.toList_append]
    exact (hstart.longest p hp hfits).trans (List.prefix_append _ _)

end Error

/-! ### Bodies -/

theorem Response.preview_longest (r : Response) : IsLongestPrefix 200 r.body r.preview := by
  rw [preview, byteLength_toList]
  split
  · next h => exact .self h
  · exact isLongestPrefix_takeBytes 200 r.body

/-! ### All cuts -/

/-- **Messages and bodies are cut between characters.** A message of at most 1024 bytes stays as it
is, and a longer one keeps its longest prefix of whole characters, which has at least 1021 bytes,
before the mark. The preview of a body is its longest prefix within 200 bytes. Both searches for the
place of the cut end at a boundary. Every error of the classifier therefore has a message within the
limit and the mark, and it begins with the venue, if that fits. -/
theorem messages_keep_whole_characters (message : String) (c : Classifier) (response : Response)
    (decoded : Option Json) :
    (message.utf8ByteSize ≤ 1024 → Error.truncate message = message) ∧
    (1024 < message.utf8ByteSize → ∃ start, IsLongestPrefix 1024 message start ∧
      1021 ≤ start.utf8ByteSize ∧ Error.truncate message = start ++ "... (truncated)") ∧
    IsLongestPrefix 200 response.body response.preview ∧
    SearchEnds message 1024 (lastBoundary message 1024) ∧
    SearchEnds response.body 200 (lastBoundary response.body 200) ∧
    ∀ error, c.classify response decoded = .error (.failed error) → ∃ e, error = .classified e ∧
      e.message.utf8ByteSize ≤ 1024 + "... (truncated)".utf8ByteSize ∧
      (c.venue.utf8ByteSize ≤ 1024 → c.venue.toList <+: e.message.toList) := by
  refine ⟨Error.truncate_of_le, fun hlong => ?_, response.preview_longest,
    searchEnds_lastBoundary _ _, searchEnds_lastBoundary _ _, fun error herror => ?_⟩
  · obtain ⟨start, hstart, heq⟩ := Error.exists_truncate hlong
    have hleft := hstart.limit_le hlong
    exact ⟨start, hstart, by omega, heq⟩
  · obtain ⟨wait, kind, code, -, -, rfl⟩ := Classifier.classify_eq_failed_iff.1 herror
    have hprefix : c.venue.toList <+: (c.venue ++ " " ++ response.body).toList :=
      prefix_iff_exists_append.2 ⟨" " ++ response.body, String.append_assoc⟩
    exact ⟨_, rfl, Error.utf8ByteSize_truncate_le _, Error.prefix_truncate hprefix⟩

/-- A text of `n` accented letters, each of two bytes. -/
def accents (n : ℕ) : String := String.ofList (List.replicate n 'é')

theorem utf8ByteSize_accents (n : ℕ) : (accents n).utf8ByteSize = 2 * n := by
  rw [← byteLength_toList, accents, String.toList_ofList]
  induction n with
  | zero => rfl
  | succ n ih =>
    have hsize : 'é'.utf8Size = 2 := by decide
    rw [List.replicate_succ, byteLength, ih, hsize]
    omega

/-- A message with the limit inside the 509th of its accented letters. -/
theorem messages_keep_whole_characters_of_accents :
    let c : Classifier := ⟨"relay", .empty, .standard⟩
    let response : Response := { status := 500, body := "\"" ++ accents 600 ++ "\"" }
    let message := "relay \"" ++ accents 600 ++ "\""
    1024 < message.utf8ByteSize ∧
      Error.truncate message = "relay \"" ++ accents 508 ++ "... (truncated)" ∧
      ∃ error, c.classify response (some (.str (accents 600))) = .error (.failed error) ∧
        "relay".utf8ByteSize ≤ 1024 ∧ ∃ e, error = .classified e ∧
          e.message.utf8ByteSize ≤ 1024 + "... (truncated)".utf8ByteSize ∧
          "relay".toList <+: e.message.toList := by
  intro c response message
  have hopening : "relay \"".utf8ByteSize = 7 := by decide
  have hlong : 1024 < message.utf8ByteSize := by
    rw [String.utf8ByteSize_append, String.utf8ByteSize_append, utf8ByteSize_accents, hopening]
    omega
  have hstart : IsLongestPrefix 1024 message ("relay \"" ++ accents 508) := by
    have hnext : message.toList =
        ("relay \"" ++ accents 508).toList ++ 'é' :: (List.replicate 91 'é' ++ "\"".toList) := by
      have hletters : List.replicate 600 'é' =
          List.replicate 508 'é' ++ 'é' :: List.replicate 91 'é' := by
        rw [← List.replicate_succ, List.replicate_append_replicate]
      simp only [message, accents, String.toList_append, String.toList_ofList, hletters,
        List.append_assoc, List.cons_append]
    have hletter : 'é'.utf8Size = 2 := by decide
    rw [isLongestPrefix_iff_of_next hnext, String.utf8ByteSize_append, utf8ByteSize_accents,
      hopening, hletter]
    decide
  have hvenue : "relay".utf8ByteSize ≤ 1024 := by decide
  obtain ⟨-, hcut, -, -, -, herror⟩ :=
    messages_keep_whole_characters message c response (some (.str (accents 600)))
  refine ⟨hlong, ?_, _, rfl, hvenue, ?_⟩
  · obtain ⟨start, hlongest, -, heq⟩ := hcut hlong
    rw [heq, hlongest.unique hstart]
  · obtain ⟨e, he, hsize, hbegins⟩ := herror _ rfl
    exact ⟨e, he, hsize, hbegins hvenue⟩

end Bourse
