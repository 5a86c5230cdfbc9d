import AudioFeatures.Proofs.Feature.Reader

/-! # What the reader produces

A feature that was read has at least one stage, its names are words, and its parameter values could
be written and read again. It knows nothing that only a catalog knows.
-/

namespace AudioFeatures

open Text

namespace Transform

variable {t : Transform}

/-- What is known of a stage that was read. -/
structure IsRead (t : Transform) : Prop where
  wellNamed : t.WellNamed
  condition : ∀ c ∈ t.condition, IsTrimmed c.toList ∧ '\x7d' ∉ c.toList
  unresolved : t.unresolved = t

theorem IsRead.wellFormed (h : t.IsRead) (hblank : t.condition ≠ some "") : t.WellFormed := by
  refine ⟨h.wellNamed, fun c hc => ⟨fun hnil => hblank ?_, h.condition c hc⟩⟩
  rw [hc, String.toList_eq_nil_iff.1 hnil]

end Transform

namespace Feature

namespace Grammar

theorem Piece.WellFormed.isSetting {p : Piece} {e : String × String} (h : p.WellFormed)
    (he : p.setting? = some e) : IsSetting e.1.toList e.2.toList := by
  cases p with
  | blank s => cases he
  | setting name value =>
    cases he
    obtain ⟨hcomma, hclosing, heq, hblank⟩ := h
    have hname {c : Char} (hc : c ∉ name ++ '=' :: value) : c ∉ trim name :=
      fun hm => hc (List.mem_append_left _ (mem_of_mem_trim hm))
    have hvalue {c : Char} (hc : c ∉ name ++ '=' :: value) : c ∉ trim value :=
      fun hm => hc (List.mem_append_right _ (List.mem_cons_of_mem _ (mem_of_mem_trim hm)))
    simp only [String.toList_ofList]
    exact ⟨⟨fun h => hblank (trim_eq_nil_iff.1 h), isTrimmed_trim name, hname hcomma,
      hname hclosing, fun hm => heq (mem_of_mem_trim hm)⟩, isTrimmed_trim value, hvalue hcomma,
      hvalue hclosing⟩

theorem Stage.WellFormed.wellNamed {c : Stage} (h : c.WellFormed) : c.transform.WellNamed := by
  refine ⟨by simpa [transform] using h.name.1, fun e he => ?_⟩
  have hsettings : e ∈ c.settings := Dict.mem_of_mem_ofList he
  rw [settings] at hsettings
  cases hp : c.parameters with
  | none => simp [hp] at hsettings
  | some p =>
    rw [hp] at hsettings
    obtain ⟨x, hx, hxe⟩ := List.mem_filterMap.1 hsettings
    exact ((h.parameters p hp).1.2 x hx).isSetting hxe

theorem Stage.WellFormed.isRead {c : Stage} (h : c.WellFormed) : c.transform.IsRead where
  wellNamed := h.wellNamed
  condition := by
    intro s hs
    obtain ⟨y, hy, rfl⟩ := Option.map_eq_some_iff.1 hs
    rw [String.toList_ofList]
    exact ⟨isTrimmed_trim y.part, fun hm => (h.condition y hy).1.2 (mem_of_mem_trim hm)⟩
  unresolved := rfl

end Grammar

variable {text : String} {f : Feature}

theorem wellNamed_parse (h : parse text = .ok f) :
    IsName f.name.toList ∧ f.stages ≠ [] ∧ ∀ t ∈ f.stages, t.WellNamed := by
  obtain ⟨d, ⟨hd, -⟩, rfl⟩ := parse_eq_ok_iff.1 h
  refine ⟨by simpa [Grammar.Derivation.feature] using hd.name.1,
    by simpa [Grammar.Derivation.feature] using hd.stages.1, fun t ht => ?_⟩
  obtain ⟨c, hc, rfl⟩ := List.mem_map.1 ht
  exact (hd.stages.2 c hc).wellNamed

theorem isRead_of_parse (h : parse text = .ok f) : ∀ t ∈ f.stages, t.IsRead := by
  obtain ⟨d, ⟨hd, -⟩, rfl⟩ := parse_eq_ok_iff.1 h
  intro t ht
  obtain ⟨c, hc, rfl⟩ := List.mem_map.1 ht
  exact (hd.stages.2 c hc).isRead

theorem unresolved_of_parse (h : parse text = .ok f) : f.unresolved = f := by
  have hstages : f.stages.map Transform.unresolved = f.stages :=
    (List.map_congr_left fun t ht => (isRead_of_parse h t ht).unresolved).trans (List.map_id _)
  rw [unresolved, hstages]

end Feature

end AudioFeatures
