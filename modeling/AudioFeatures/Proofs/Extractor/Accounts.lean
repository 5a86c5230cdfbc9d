import AudioFeatures.Extractor.Extraction
import AudioFeatures.Catalog.Load
import AudioFeatures.Proofs.Engine.Ledger

/-! # The accounts of extractors

What each operation leaves outstanding: an extractor its configuration, an undecoded extraction its
batch, and every other operation nothing, whether it succeeds or fails.
-/

namespace AudioFeatures

open Engine

variable {s : Multiset Resource}

namespace Engine

theorem keeps_transformNames : Keeps s transformNames fun _ => s :=
  .bracket (Multiset.zero_le s) returns_transforms fun _ => .pure rfl

theorem keeps_transformDetails (name : String) : Keeps s (transformDetails name) fun _ => s :=
  .bracket (Multiset.zero_le s) (returns_details name) fun _ => .pure rfl

theorem keeps_formatConverters : Keeps s formatConverters fun _ => s :=
  .bracket (Multiset.zero_le s) returns_converters fun _ => .pure rfl

end Engine

namespace Catalog

theorem keeps_loadEntries (names : List String) : Keeps s (loadEntries names) fun _ => s := by
  induction names with
  | nil => exact .pure rfl
  | cons name names ih =>
    unfold loadEntries
    split
    · exact .pure rfl
    · refine (keeps_transformDetails _).bind fun d => ?_
      cases d with
      | error e => exact .pure rfl
      | ok d => exact ih.bind fun _ => .pure rfl

theorem keeps_load : Keeps s load fun _ => s := by
  refine keeps_transformNames.bind fun names => ?_
  cases names with
  | error e => exact .pure rfl
  | ok names =>
    refine (keeps_loadEntries names).bind fun ts => ?_
    cases ts with
    | error e => exact .pure rfl
    | ok ts => exact keeps_formatConverters.bind fun _ => .pure rfl

theorem keeps_getOrLoad (slot : Option Catalog) : Keeps s (getOrLoad slot) fun _ => s := by
  cases slot with
  | some c => exact .pure rfl
  | none =>
    refine keeps_load.bind fun c => ?_
    cases c <;> exact .pure rfl

end Catalog

theorem Tunables.keeps_apply (t : Tunables) : Keeps s t.apply fun _ => s := by
  rcases t with ⟨_ | n, _ | b, _ | c, _ | k⟩ <;>
    repeat first
      | exact .pure rfl
      | exact .neutral (Multiset.zero_le s) rfl fun _ => rfl
      | refine Keeps.bind (.neutral (Multiset.zero_le s) rfl fun _ => rfl) fun _ => ?_

/-- What an extractor holds. -/
def Extractor.held (x : Extractor) : Multiset Resource := {.configuration x.configuration}

/-- What the results of an extraction hold. -/
def RawExtraction.held (r : RawExtraction) : Multiset Resource := {.batch r.batch}

/-- What the value of a computation holds; a failed one holds nothing. -/
def heldBy {α : Type} (held : α → Multiset Resource) : Except Error α → Multiset Resource
  | .ok a => held a
  | .error _ => 0

theorem Engine.keeps_releaseBatch (b : Batch) :
    Keeps ({.batch b} + s) (ask (.releaseBatch b)) fun _ => s :=
  .release (q := .releaseBatch b) rfl fun _ => rfl

theorem RawExtraction.keeps_release (r : RawExtraction) :
    Keeps (r.held + s) r.release fun _ => s :=
  keeps_releaseBatch r.batch

theorem RawExtraction.keeps_decodeLogged (r : RawExtraction) :
    Keeps s r.decodeLogged fun _ => s :=
  (Keeps.writeAll _).bind fun _ => .pure rfl

namespace Extractor

theorem keeps_new (c : Catalog) (features : List Feature) (config : Config) :
    Keeps s (new c features config) fun x => heldBy held x + s := by
  have hfail (e : Error) : s = heldBy held (.error e) + s := (Multiset.zero_add s).symm
  unfold new
  split
  · exact .pure (hfail _)
  · refine (Tunables.keeps_apply _).bind fun _ => ?_
    split
    · exact .pure (hfail _)
    · refine (Keeps.acquire (Multiset.zero_le s) rfl).bind fun configuration => ?_
      cases configuration with
      | none => exact .pure rfl
      | some configuration => exact .pure rfl

theorem keeps_ofTexts (c : Catalog) (texts : List String) (config : Config) :
    Keeps s (ofTexts c texts config) fun x => heldBy held x + s := by
  unfold ofTexts
  split
  · exact .pure (Multiset.zero_add s).symm
  · exact keeps_new _ _ _

variable {x : Extractor}

theorem keeps_calculateRaw (x : Extractor) (samples : List Int16) :
    Keeps (x.held + s) (x.calculateRaw samples) fun r =>
      heldBy RawExtraction.held r.1 + (r.2.held + s) := by
  have hheld : x.held ≤ x.held + s := Multiset.le_add_right _ _
  unfold calculateRaw
  split
  · exact .pure (Multiset.zero_add _).symm
  · refine (Keeps.acquire hheld rfl).bind fun r => ?_
    dsimp only
    split
    · refine (Keeps.write _).bind fun _ => ?_
      exact (keeps_releaseBatch _).bind fun _ => .pure (Multiset.zero_add _).symm
    · exact .pure rfl

theorem keeps_calculate (x : Extractor) (samples : List Int16) :
    Keeps (x.held + s) (x.calculate samples) fun r => r.2.held + s := by
  refine (keeps_calculateRaw x samples).bind fun r => ?_
  obtain ⟨r, y⟩ := r
  cases r with
  | error e => exact .pure (Multiset.zero_add _)
  | ok raw =>
    refine raw.keeps_decodeLogged.bind fun results => ?_
    exact raw.keeps_release.bind fun _ => .pure rfl

theorem keeps_timingReport (h : x.held ≤ s) : Keeps s x.timingReport fun _ => s :=
  .bracket h (returns_times _) fun _ => .pure rfl

theorem keeps_report (h : x.held ≤ s) (path : Bytes) : Keeps s (x.report path) fun _ => s := by
  unfold report
  split
  · exact .write _
  · split
    · exact .write _
    · exact .neutral h rfl fun _ => rfl

theorem keeps_close (x : Extractor) : Keeps (x.held + s) x.close fun _ => s :=
  .release (q := .destroy x.configuration) rfl fun _ => rfl

end Extractor

end AudioFeatures
