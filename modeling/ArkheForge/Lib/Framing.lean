/-
  Length-prefixed frames.

  A `Format` fixes the width of the length field and the largest payload. The
  language of the format is `stream ps` for payloads it admits: each payload
  behind its big-endian length. A prefix of a stream is a shorter stream followed
  by at most one torn frame (`prefix_stream`).
-/
import ArkheForge.Lib.BigEndian

open BigEndian

/-- A frame format: length fields of `width` bytes, payloads of at most `maxLen`. -/
structure Framing where
  width : ℕ
  maxLen : ℕ
  maxLen_lt : maxLen < 256 ^ width

namespace Framing

variable (F : Framing) {p q s t : Bytes} {ps qs : List Bytes}

/-- The payloads the format carries: never empty, never above the bound. -/
def Admits (p : Bytes) : Prop := 0 < p.length ∧ p.length ≤ F.maxLen

instance (p : Bytes) : Decidable (F.Admits p) := inferInstanceAs (Decidable (_ ∧ _))

/-- A payload behind its length. -/
def frame (p : Bytes) : Bytes := toBe F.width p.length ++ p

/-- Frames back to back. -/
def stream (ps : List Bytes) : Bytes := ps.flatMap F.frame

/-- A frame cut short: some of its bytes, but not all. -/
def Torn (t : Bytes) : Prop := t ≠ [] ∧ ∃ p, F.Admits p ∧ t <+: F.frame p ∧ t ≠ F.frame p

@[simp] theorem frame_length (p : Bytes) : (F.frame p).length = F.width + p.length := by
  simp [frame]

@[simp] theorem stream_nil : F.stream [] = [] := rfl

@[simp] theorem stream_cons (p : Bytes) (ps : List Bytes) :
    F.stream (p :: ps) = F.frame p ++ F.stream ps := rfl

@[simp] theorem stream_append (ps qs : List Bytes) :
    F.stream (ps ++ qs) = F.stream ps ++ F.stream qs :=
  List.flatMap_append ..

variable {F}

theorem Admits.length_lt (h : F.Admits p) : p.length < 256 ^ F.width :=
  lt_of_le_of_lt h.2 F.maxLen_lt

/-! ## Cutting a stream short -/

/-- A prefix of a stream is the stream of its first frames, or these and a torn frame,
    the next one cut short. -/
theorem prefix_stream (hps : ∀ p ∈ ps, F.Admits p) (h : s <+: F.stream ps) :
    ∃ k, s = F.stream (ps.take k) ∨ k < ps.length ∧ ∃ t, F.Torn t ∧
      s = F.stream (ps.take k) ++ t ∧ s.length < (F.stream (ps.take (k + 1))).length := by
  induction ps generalizing s with
  | nil => exact ⟨0, .inl (by simpa using h)⟩
  | cons p ps ih =>
      rw [stream_cons] at h
      have hp := hps p (by simp)
      rcases List.prefix_or_prefix_of_prefix h (List.prefix_append _ _) with hshort | ⟨s', rfl⟩
      · by_cases hnil : s = []
        · exact ⟨0, .inl (by simpa using hnil)⟩
        by_cases hfull : s = F.frame p
        · exact ⟨1, .inl (by simp [hfull])⟩
        · have hlen : s.length < (F.frame p).length :=
            lt_of_le_of_ne hshort.length_le fun heq => hfull (hshort.eq_of_length heq)
          exact ⟨0, .inr ⟨by simp, s, ⟨hnil, p, hp, hshort, hfull⟩, by simp, by simpa using hlen⟩⟩
      · rw [List.prefix_append_right_inj] at h
        obtain ⟨k, rfl | ⟨hk, t, ht, rfl, hlen⟩⟩ := ih (fun p' hp' => hps p' (by simp [hp'])) h
        · exact ⟨k + 1, .inl (by simp)⟩
        · refine ⟨k + 1, .inr ⟨by simpa using hk, t, ht, by simp, ?_⟩⟩
          simpa using hlen

end Framing
