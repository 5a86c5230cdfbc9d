import AudioFeatures.Decoded.Basic
import AudioFeatures.Proofs.Layout.Outcomes

/-! # Formats that decoding survives

Reading a format can end a whole decoding where the length of rows starts inside a character. A
format of single bytes has no such place: it is read, or it fails for its own result only.
-/

namespace AudioFeatures

variable {α β : Type} {x : Except Error α}

/-- A failure, if there is one, leaves other results alone. -/
def Recoverable (x : Except Error α) : Prop := ∀ e, x = .error e → e.isFatal = false

@[simp] theorem recoverable_ok (a : α) : Recoverable (.ok a : Except Error α) := nofun

@[simp] theorem recoverable_error {e : Error} :
    Recoverable (.error e : Except Error α) ↔ e.isFatal = false := by
  simp [Recoverable]

theorem Recoverable.map (h : Recoverable x) (f : α → β) : Recoverable (x.map f) := by
  cases x with
  | error e => exact recoverable_error.2 (h e rfl)
  | ok a => exact recoverable_ok (f a)

theorem Recoverable.bind {f : α → Except Error β} (h : Recoverable x)
    (hf : ∀ a, Recoverable (f a)) : Recoverable (x >>= f) := by
  cases x with
  | error e => exact recoverable_error.2 (h e rfl)
  | ok a => exact hf a

/-- Every character is a single byte. -/
def Text.IsAscii (s : List Char) : Prop := ∀ c ∈ s, c.toNat < 0x80

instance (s : List Char) : Decidable (Text.IsAscii s) :=
  decidable_of_iff (s.all fun c => decide (c.toNat < 0x80)) (by simp [Text.IsAscii])

open Text

namespace Layout

/-- The character that is split has several bytes. -/
theorem not_splitsLength_of_isAscii {format : String} (h : IsAscii format.toList) :
    ¬SplitsLength format := by
  rintro ⟨front, length, rest, hs, -, -, f, c, digits, r, hrun, hc⟩
  have hmem : c ∈ format.toList := by
    rw [hs, hrun.eq]
    simp
  exact absurd (h c hmem) (Nat.not_lt.2 hc)

theorem Settled.recoverable {format : String} {r : Except Error Layout} (h : Settled format r) :
    Recoverable r := by
  cases h with
  | ok l => exact recoverable_ok l
  | malformed => exact recoverable_error.2 rfl
  | unsupported => exact recoverable_error.2 rfl

theorem recoverable_parse {format : String} (h : IsAscii format.toList) :
    Recoverable (parse format) := by
  rcases parse_cases format with ⟨hsplits, -⟩ | ⟨-, hsettled⟩
  · exact absurd hsplits (not_splitsLength_of_isAscii h)
  · exact hsettled.recoverable

theorem recoverable_decode (l : Layout) (b : Buffer) (options : DecodeOptions) :
    Recoverable (l.decode b options) := by
  have htype : Recoverable l.elementType := by
    rw [elementType]
    split
    · exact recoverable_ok _
    · exact recoverable_error.2 rfl
  refine htype.bind fun t => ?_
  dsimp only
  split
  · exact recoverable_error.2 rfl
  · split
    · exact recoverable_error.2 rfl
    · exact recoverable_ok _

end Layout

/-- Under a format of single bytes, decoding fails for its own result only. -/
theorem Decoded.recoverable_ofFormat {format : String} (h : IsAscii format.toList) (b : Buffer)
    (options : DecodeOptions) : Recoverable (ofFormat format b options) :=
  (Layout.recoverable_parse h).bind fun l => l.recoverable_decode b options

end AudioFeatures
