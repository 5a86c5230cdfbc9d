import AudioFeatures.Catalog.Load
import AudioFeatures.Extractor.Basic
import AudioFeatures.Proofs.Engine.Dialogue

/-! # What engines are asked

A catalog is loaded by asking for transforms and converters, an extractor is opened by changing
settings and one setup. Nothing of that is written to the log.
-/

namespace AudioFeatures

open Engine

namespace Engine

namespace Request

/-- Whether a process-wide setting is changed. -/
def isSetting : Request → Bool
  | setMaxThreads _ | setUseSimd _ | setCpuCacheSize _ | setChunkSize _ => true
  | _ => false

/-- Whether a catalog is asked for, or a part of its lists given back. -/
def isCatalogQuery : Request → Bool
  | queryTransforms | releaseTransforms _ | queryDetails _ | releaseDetails _ | queryConverters
  | releaseConverters _ => true
  | _ => false

theorem isCatalogQuery_of_isSetting {q : Request} (h : q.isSetting = true) :
    q.isCatalogQuery = false := by
  cases q with
  | setMaxThreads | setUseSimd | setCpuCacheSize | setChunkSize => rfl
  | _ => cases h

end Request

theorem asks_transformNames : transformNames.Asks fun q : Request => q.isCatalogQuery = true :=
  asks_bracket rfl (fun _ => rfl) fun _ => .pure _

theorem asks_transformDetails (name : String) :
    (transformDetails name).Asks fun q : Request => q.isCatalogQuery = true :=
  asks_bracket rfl (fun _ => rfl) fun _ => .pure _

theorem asks_formatConverters :
    formatConverters.Asks fun q : Request => q.isCatalogQuery = true :=
  asks_bracket rfl (fun _ => rfl) fun _ => .pure _

end Engine

namespace Catalog

theorem asks_loadEntries (names : List String) :
    (loadEntries names).Asks fun q : Request => q.isCatalogQuery = true := by
  induction names with
  | nil => exact .pure _
  | cons name names ih =>
    unfold loadEntries
    split
    · exact .pure _
    · refine (asks_transformDetails _).bind fun d => ?_
      cases d with
      | error e => exact .pure _
      | ok d => exact ih.bind fun _ => .pure _

theorem asks_load : load.Asks fun q : Request => q.isCatalogQuery = true := by
  refine asks_transformNames.bind fun names => ?_
  cases names with
  | error e => exact .pure _
  | ok names =>
    refine (asks_loadEntries names).bind fun ts => ?_
    cases ts with
    | error e => exact .pure _
    | ok ts => exact asks_formatConverters.bind fun _ => .pure _

end Catalog

namespace Tunables

theorem asks_apply (t : Tunables) : t.apply.Asks fun q : Request => q.isSetting = true := by
  rcases t with ⟨_ | n, _ | b, _ | c, _ | k⟩ <;>
    repeat first
      | exact trivial
      | refine ⟨rfl, fun _ => ?_⟩

theorem asks_current : current.Asks fun q : Request => q.isCatalogQuery = false :=
  ⟨rfl, fun _ => ⟨rfl, fun _ => ⟨rfl, fun _ => ⟨rfl, fun _ => trivial⟩⟩⟩⟩

end Tunables

namespace Extractor

theorem asks_new (c : Catalog) (features : List Feature) (config : Config) :
    (new c features config).Asks fun q : Request => q.isCatalogQuery = false := by
  unfold new
  split
  · exact .pure _
  · refine .bind (config.tunables.asks_apply.mono fun _ => Request.isCatalogQuery_of_isSetting)
      fun _ => ?_
    split
    · exact .pure _
    · refine .bind (.request rfl) fun configuration => ?_
      cases configuration <;> exact .pure _

theorem asks_ofTexts (c : Catalog) (texts : List String) (config : Config) :
    (ofTexts c texts config).Asks fun q : Request => q.isCatalogQuery = false := by
  unfold ofTexts
  split
  · exact .pure _
  · exact asks_new _ _ _

end Extractor

end AudioFeatures
