import AudioFeatures.Catalog.Load
import AudioFeatures.Engine.Scripted
import AudioFeatures.Proofs.Dict
import AudioFeatures.Proofs.Engine.Dialogue
import AudioFeatures.Proofs.Engine.ForeignText

/-! # What a load makes of a registry

The engine describes its registry in lists of texts beside each other, and each reply is given back
at once. The first reply with a text that is not UTF-8 ends the load. If there is none, the catalog
has what the replies say.
-/

namespace AudioFeatures

open Engine Text

variable {α β : Type}

namespace Engine

open ForeignText (IsWhole Reads reads_readList)

/-! ## Replies -/

namespace NameList

def texts (l : NameList) : List Bytes := ForeignText.texts l.items l.length

def Tells (l : NameList) (names : List String) : Prop := ForeignText.Tells l.items l.length names

end NameList

namespace Details

def texts (d : Details) : List Bytes :=
  ForeignText.texts d.parameterNames d.parameterCount ++
    (ForeignText.texts d.parameterDescriptions d.parameterCount ++
      (ForeignText.texts d.parameterDefaults d.parameterCount ++
        [d.description.getD [], d.inputFormat.getD [], d.outputFormat.getD []]))

structure Tells (d : Details) (x : Text) : Prop where
  description : d.description.getD [] = Utf8.encode x.description
  inputFormat : d.inputFormat.getD [] = Utf8.encode x.inputFormat
  outputFormat : d.outputFormat.getD [] = Utf8.encode x.outputFormat
  names : ForeignText.Tells d.parameterNames d.parameterCount (x.parameters.map (·.1))
  descriptions : ForeignText.Tells d.parameterDescriptions d.parameterCount
    (x.parameters.map (·.2.1))
  defaults : ForeignText.Tells d.parameterDefaults d.parameterCount (x.parameters.map (·.2.2))

/-- Pairing lists that are equally long loses nothing. -/
theorem columns_zip {names descriptions defaults : List String}
    (hnames : names.length = descriptions.length)
    (hvalues : descriptions.length = defaults.length) :
    (names.zip (descriptions.zip defaults)).map (·.1) = names ∧
      (names.zip (descriptions.zip defaults)).map (·.2.1) = descriptions ∧
      (names.zip (descriptions.zip defaults)).map (·.2.2) = defaults := by
  have hrows : names.length = (descriptions.zip defaults).length := by
    rw [List.length_zip, ← hvalues, Nat.min_self, hnames]
  have htail : (names.zip (descriptions.zip defaults)).map Prod.snd = descriptions.zip defaults :=
    List.map_snd_zip hrows.ge
  refine ⟨List.map_fst_zip hrows.le, ?_, ?_⟩
  · calc (names.zip (descriptions.zip defaults)).map (·.2.1)
        = ((names.zip (descriptions.zip defaults)).map Prod.snd).map Prod.fst := List.map_map.symm
      _ = descriptions := by rw [htail, List.map_fst_zip hvalues.le]
  · calc (names.zip (descriptions.zip defaults)).map (·.2.2)
        = ((names.zip (descriptions.zip defaults)).map Prod.snd).map Prod.snd := List.map_map.symm
      _ = defaults := by rw [htail, List.map_snd_zip hvalues.ge]

theorem reads_read {d : Details} (hnames : IsWhole d.parameterNames d.parameterCount)
    (hdescriptions : IsWhole d.parameterDescriptions d.parameterCount)
    (hdefaults : IsWhole d.parameterDefaults d.parameterCount) :
    Reads d.texts d.Tells d.read := by
  refine (reads_readList hnames).bind fun names hn =>
    (reads_readList hdescriptions).bind fun descriptions hd =>
    (reads_readList hdefaults).bind fun defaults hv =>
    (ForeignText.reads_read d.description).bind fun description hdescription =>
    (ForeignText.reads_read d.inputFormat).bind fun input hinput =>
    (ForeignText.reads_read d.outputFormat).bind_pure fun output houtput => ?_
  obtain ⟨hfirst, hsecond, hthird⟩ := columns_zip (hn.1.trans hd.1.symm) (hd.1.trans hv.1.symm)
  exact ⟨hdescription, hinput, houtput, hfirst.symm ▸ hn, hsecond.symm ▸ hd, hthird.symm ▸ hv⟩

end Details

namespace ConverterList

def texts (l : ConverterList) : List Bytes :=
  ForeignText.texts l.inputs l.length ++ ForeignText.texts l.outputs l.length

structure Tells (l : ConverterList) (pairs : List (String × String)) : Prop where
  inputs : ForeignText.Tells l.inputs l.length (pairs.map (·.1))
  outputs : ForeignText.Tells l.outputs l.length (pairs.map (·.2))

theorem reads_read {l : ConverterList} (hinputs : IsWhole l.inputs l.length)
    (houtputs : IsWhole l.outputs l.length) : Reads l.texts l.Tells l.read := by
  refine (reads_readList hinputs).bind fun inputs hi =>
    (reads_readList houtputs).bind_pure fun outputs ho => ?_
  have hlength : inputs.length = outputs.length := hi.1.trans ho.1.symm
  refine ⟨?_, ?_⟩
  · rwa [List.map_fst_zip hlength.le]
  · rwa [List.map_snd_zip hlength.ge]

end ConverterList

/-! ## Exchanges -/

/-- The texts that a reply about the registry hands over. -/
def textsOf : Event interface → List Bytes
  | .call .queryTransforms l => l.texts
  | .call (.queryDetails _) d => d.texts
  | .call .queryConverters l => l.texts
  | _ => []

def IsText (e : Event interface) : Prop := ∀ t ∈ textsOf e, Utf8.IsText t

instance : DecidablePred IsText := fun e =>
  inferInstanceAs (Decidable (∀ t ∈ textsOf e, Utf8.IsText t))

/-- The lists of texts that such a reply hands over, with the lengths that it says they have. -/
def listsOf : Event interface → List (Option (List ForeignText) × Int32)
  | .call .queryTransforms l => [(l.items, l.length)]
  | .call (.queryDetails _) d => [(d.parameterNames, d.parameterCount),
      (d.parameterDescriptions, d.parameterCount), (d.parameterDefaults, d.parameterCount)]
  | .call .queryConverters l => [(l.inputs, l.length), (l.outputs, l.length)]
  | _ => []

def HasWholeLists (e : Event interface) : Prop := ∀ x ∈ listsOf e, IsWhole x.1 x.2

instance : DecidablePred HasWholeLists := fun e =>
  inferInstanceAs (Decidable (∀ x ∈ listsOf e, IsWhole x.1 x.2))

/-- The step that gives a reply about the registry back. -/
def releaseOf : Event interface → List (Event interface)
  | .call .queryTransforms l => [.call (.releaseTransforms l) ()]
  | .call (.queryDetails _) d => [.call (.releaseDetails d) ()]
  | .call .queryConverters l => [.call (.releaseConverters l) ()]
  | _ => []

def exchange (e : Event interface) : List (Event interface) := e :: releaseOf e

theorem isText_of_mem_releaseOf {e e' : Event interface} (h : e' ∈ releaseOf e) : IsText e' := by
  unfold releaseOf at h
  split at h <;> simp at h <;> subst h <;> simp [IsText, textsOf]

/-- With an engine whose lists are whole, a dialogue consists of exchanges. It has a value of a kind
if their texts are UTF-8, and ends with the first exchange of a text that is not. -/
def Gathers (p : List (Event interface) → α → Prop) (d : Talk (Except Error α)) : Prop :=
  ∀ (R : Responder interface) (s : R.State), (∀ e ∈ (d.run R s).events, HasWholeLists e) →
    (∃ (es : List (Event interface)) (a : α), (d.run R s).value = .ok a ∧
      (d.run R s).events = es.flatMap exchange ∧ (∀ e ∈ es, IsText e) ∧ p es a) ∨
    ∃ (es : List (Event interface)) (e : Event interface) (fault : Utf8Fault),
      (d.run R s).value = .error (.invalidString (.notUtf8 fault)) ∧
      (d.run R s).events = es.flatMap exchange ++ exchange e ∧ (∀ e ∈ es, IsText e) ∧ ¬IsText e

namespace Gathers

variable {p : List (Event interface) → α → Prop} {q : List (Event interface) → β → Prop}
  {d : Talk (Except Error α)} {k : Except Error α → Talk (Except Error β)}

theorem pure {a : α} (h : p [] a) : Gathers p (Pure.pure (.ok a)) :=
  fun _ _ _ => .inl ⟨[], a, rfl, rfl, by simp, h⟩

theorem bind (hd : Gathers p d) (herror : ∀ e, k (.error e) = Pure.pure (.error e))
    (hok : ∀ es a, p es a → Gathers (fun es' => q (es ++ es')) (k (.ok a))) :
    Gathers q (d >>= k) := by
  intro R s hwhole
  rw [Dialogue.events_bind, List.forall_mem_append] at hwhole
  rw [Dialogue.value_bind, Dialogue.events_bind]
  rcases hd R s hwhole.1 with ⟨es, a, ha, hes, htexts, hp⟩ | ⟨es, e, fault, he, hes, htexts, hbad⟩
  · rw [ha] at hwhole ⊢
    rw [hes]
    rcases hok es a hp R _ hwhole.2 with
      ⟨es', b, hb, hes', htexts', hq⟩ | ⟨es', e, fault, he, hes', htexts', hbad⟩
    · refine .inl ⟨es ++ es', b, hb, ?_, List.forall_mem_append.2 ⟨htexts, htexts'⟩, hq⟩
      rw [hes', List.flatMap_append]
    · refine .inr ⟨es ++ es', e, fault, he, ?_, List.forall_mem_append.2 ⟨htexts, htexts'⟩, hbad⟩
      rw [hes', List.flatMap_append, List.append_assoc]
  · rw [he, herror, hes]
    exact .inr ⟨es, e, fault, rfl, List.append_nil _, htexts, hbad⟩

/-- One exchange, in which the reply is read before it is given back. -/
theorem bracket {q : Request} {release : q.Reply → Request} {read : q.Reply → Except Error α}
    (hrelease : ∀ r a, releaseOf (.call q r) = [.call (release r) a])
    (h : ∀ r, HasWholeLists (.call q r) →
      Reads (textsOf (.call q r)) (p [.call q r]) (read r)) :
    Gathers p (Engine.bracket q release fun r => Pure.pure (read r)) := by
  intro R s hwhole
  obtain ⟨r, a, hvalue, hevents⟩ : ∃ r a,
      ((Engine.bracket q release fun r => Pure.pure (read r)).run R s).value = read r ∧
      ((Engine.bracket q release fun r => Pure.pure (read r)).run R s).events =
        [.call q r, .call (release r) a] := by
    rw [run_bracket]
    exact ⟨_, _, rfl, rfl⟩
  have hexchange : [.call q r, .call (release r) a] = exchange (.call q r) := by
    rw [exchange, hrelease r a]
  rw [hevents, hexchange] at hwhole
  rw [hvalue, hevents, hexchange]
  rcases h r (hwhole _ List.mem_cons_self) with ⟨b, hb, hp, htexts⟩ | ⟨fault, he, hbad⟩
  · exact .inl ⟨[.call q r], b, hb, (List.flatMap_singleton _ _).symm,
      List.forall_mem_singleton.2 htexts, hp⟩
  · refine .inr ⟨[], .call q r, fault, he, rfl, by simp, fun htexts => ?_⟩
    obtain ⟨t, ht, hbad⟩ := hbad
    exact hbad (htexts t ht)

end Gathers

theorem gathers_transformNames : Gathers (fun es names => ∃ l : NameList,
    es = [.call .queryTransforms l] ∧ l.Tells names ∧
      ∀ name ∈ names, ForeignText.check name = .ok name) transformNames :=
  .bracket (fun _ _ => rfl) fun _ h => by
    have hitems := List.forall_mem_singleton.1 h
    exact (reads_readList hitems).imp fun _ hnames =>
      ⟨_, rfl, hnames, fun _ => hnames.check hitems⟩

theorem gathers_transformDetails (name : String) : Gathers (fun es x => ∃ d : Details,
    es = [.call (.queryDetails name) d] ∧ d.Tells x) (transformDetails name) :=
  .bracket (fun _ _ => rfl) fun _ h => by
    simp only [HasWholeLists, listsOf, List.forall_mem_cons] at h
    exact (Details.reads_read h.1 h.2.1 h.2.2.1).imp fun _ hx => ⟨_, rfl, hx⟩

theorem gathers_formatConverters : Gathers (fun es pairs => ∃ l : ConverterList,
    es = [.call .queryConverters l] ∧ l.Tells pairs) formatConverters :=
  .bracket (fun _ _ => rfl) fun _ h => by
    simp only [HasWholeLists, listsOf, List.forall_mem_cons] at h
    exact (ConverterList.reads_read h.1 h.2.1).imp fun _ hpairs => ⟨_, rfl, hpairs⟩

end Engine

namespace Catalog

variable {names : List String} {pairs : List (String × String)}
  {known : List (String × Details.Text)} {R : Responder interface} {s : R.State}

/-- The question for each name with its reply. -/
def detailEvents (replies : List (String × Details)) : List (Event interface) :=
  replies.map fun reply => .call (.queryDetails reply.1) reply.2

def entries (known : List (String × Details.Text)) : List Transform :=
  known.map fun x => entry x.1 x.2

theorem gathers_loadEntries (h : ∀ name ∈ names, ForeignText.check name = .ok name) :
    Gathers (fun es ts => ∃ ds xs, List.Forall₂ Details.Tells ds xs ∧ ds.length = names.length ∧
      es = detailEvents (names.zip ds) ∧ ts = entries (names.zip xs)) (loadEntries names) := by
  induction names with
  | nil => exact .pure ⟨[], [], .nil, rfl, rfl, rfl⟩
  | cons name names ih =>
    obtain ⟨hname, hnames⟩ := List.forall_mem_cons.1 h
    unfold loadEntries
    rw [hname]
    refine (gathers_transformDetails name).bind (fun _ => rfl) ?_
    rintro _ x ⟨d, rfl, hx⟩
    refine (ih hnames).bind (fun _ => rfl) ?_
    rintro _ _ ⟨ds, xs, hxs, hlength, rfl, rfl⟩
    refine .pure ⟨d :: ds, x :: xs, .cons hx hxs, congrArg (· + 1) hlength, ?_, rfl⟩
    rw [List.append_nil]
    rfl

/-- All questions of a load, each with its reply. -/
def loadEvents (l : NameList) (replies : List (String × Details)) (k : ConverterList) :
    List (Event interface) :=
  .call .queryTransforms l :: (detailEvents replies ++ [.call .queryConverters k])

theorem gathers_load : Gathers (fun es c => ∃ (l : NameList) (names : List String)
    (ds : List Details) (xs : List Details.Text) (k : ConverterList)
    (pairs : List (String × String)), l.Tells names ∧ List.Forall₂ Details.Tells ds xs ∧
      ds.length = names.length ∧ k.Tells pairs ∧ es = loadEvents l (names.zip ds) k ∧
      c = ofParts (entries (names.zip xs)) pairs) load := by
  unfold load
  refine gathers_transformNames.bind (fun _ => rfl) ?_
  rintro _ names ⟨l, rfl, hl, hnames⟩
  refine (gathers_loadEntries hnames).bind (fun _ => rfl) ?_
  rintro _ _ ⟨ds, xs, hxs, hlength, rfl, rfl⟩
  refine gathers_formatConverters.bind (fun _ => rfl) ?_
  rintro _ pairs ⟨k, rfl, hk⟩
  refine .pure ⟨l, names, ds, xs, k, pairs, hl, hxs, hlength, hk, ?_, rfl⟩
  rw [loadEvents, List.append_nil]
  rfl

/-! ## What a catalog holds -/

/-- The outputs that stand beside an input, in order of first appearance. -/
def outputsFor (pairs : List (String × String)) (input : String) : List String :=
  ((pairs.filter fun pair => pair.1 == input).map (·.2)).eraseDups

/-- The catalog has what is known of each name, of which the last counts, and the pairs of formats.
Nothing is set in its entries. -/
structure Holds (c : Catalog) (known : List (String × Details.Text))
    (pairs : List (String × String)) : Prop where
  keys : ∀ key, (c.get? key).isSome = true ↔ key ∈ known.map (·.1)
  entry : ∀ key t, c.get? key = some t →
    t.name = key ∧ t.parameters = ∅ ∧ t.condition = none ∧
      ∃ x, known.reverse.lookup key = some x ∧ t.description = x.description ∧
        t.inputFormat = x.inputFormat ∧ t.outputFormat = x.outputFormat ∧
        ∀ p, t.supportedParameters.get? p =
          (x.parameters.reverse.lookup p).map fun (description, value) => ⟨p, description, value⟩
  converters : ∀ input, c.convertersFrom input = outputsFor pairs input

theorem get?_entries (key : String) :
    (ofParts (entries known) pairs).get? key =
      (known.reverse.lookup key).map (Catalog.entry key) := by
  have hpairs : (entries known).map (fun t => (t.name, t)) =
      known.map fun x => (x.1, Catalog.entry x.1 x.2) := List.map_map
  rw [get?, ofParts, Dict.get?_ofList, hpairs, ← List.map_reverse, Dict.lookup_map]

theorem get?_supportedParameters (name p : String) (x : Details.Text) :
    (Catalog.entry name x).supportedParameters.get? p =
      (x.parameters.reverse.lookup p).map fun (description, value) => ⟨p, description, value⟩ := by
  rw [Catalog.entry, Dict.get?_ofList, ← List.map_reverse]
  exact Dict.lookup_map (fun p (y : String × String) => (⟨p, y.1, y.2⟩ : Parameter)) _ p

/-- A pair is added to the outputs of its input, unless it is there. -/
theorem get?_addConverter (converters : Dict (List String)) (pair : String × String)
    (input : String) :
    ((addConverter converters pair).get? input).getD [] =
      if pair.1 = input ∧ pair.2 ∉ (converters.get? input).getD [] then
        (converters.get? input).getD [] ++ [pair.2]
      else (converters.get? input).getD [] := by
  rw [addConverter]
  by_cases hinput : pair.1 = input
  · subst hinput
    by_cases hmem : pair.2 ∈ (converters.get? pair.1).getD []
    · simp [hmem]
    · simp [hmem, Dict.get?_insert]
  · simp only [hinput, false_and, if_false]
    split
    · rfl
    · rw [Dict.get?_insert, if_neg hinput]

theorem eraseDups_append_singleton (xs : List String) (x : String) :
    (xs ++ [x]).eraseDups =
      if x ∈ xs.eraseDups then xs.eraseDups else xs.eraseDups ++ [x] := by
  rw [List.eraseDups_append, List.removeAll]
  have hone : [x].eraseDups = [x] := rfl
  by_cases h : x ∈ xs <;> simp [h, hone]

theorem outputsFor_append_singleton (pair : String × String) (input : String) :
    outputsFor (pairs ++ [pair]) input =
      if pair.1 = input ∧ pair.2 ∉ outputsFor pairs input then
        outputsFor pairs input ++ [pair.2]
      else outputsFor pairs input := by
  by_cases hinput : pair.1 = input
  · have hfilter : ((pairs ++ [pair]).filter fun pair => pair.1 == input).map (·.2) =
        ((pairs.filter fun pair => pair.1 == input).map (·.2)) ++ [pair.2] := by simp [hinput]
    rw [outputsFor, hfilter, eraseDups_append_singleton, ← outputsFor]
    by_cases hmem : pair.2 ∈ outputsFor pairs input <;> simp [hinput, hmem]
  · simp [outputsFor, hinput]

theorem convertersFrom_ofParts (ts : List Transform) (pairs : List (String × String))
    (input : String) : (ofParts ts pairs).convertersFrom input = outputsFor pairs input := by
  rw [convertersFrom, ofParts]
  induction pairs using List.reverseRecOn with
  | nil => rfl
  | append_singleton pairs pair ih =>
    rw [List.foldl_append, List.foldl_cons, List.foldl_nil, get?_addConverter, ih,
      outputsFor_append_singleton]

theorem holds_ofParts (known : List (String × Details.Text)) (pairs : List (String × String)) :
    (ofParts (entries known) pairs).Holds known pairs := by
  refine ⟨fun key => ?_, fun key t ht => ?_, convertersFrom_ofParts _ pairs⟩
  · rw [get?_entries, Option.isSome_map, List.lookup_isSome_iff]
    constructor
    · rintro ⟨x, hx, hkey⟩
      exact List.mem_map.2 ⟨x, List.mem_reverse.1 hx, (beq_iff_eq.1 hkey).symm⟩
    · intro hkey
      obtain ⟨x, hx, rfl⟩ := List.mem_map.1 hkey
      exact ⟨x, List.mem_reverse.2 hx, beq_self_eq_true _⟩
  · rw [get?_entries] at ht
    obtain ⟨x, hx, rfl⟩ := Option.map_eq_some_iff.1 ht
    exact ⟨rfl, rfl, rfl, x, hx, rfl, rfl, rfl, fun p => get?_supportedParameters key p x⟩

/-! ## Loads -/

theorem isText_of_mem_exchanges {es : List (Event interface)} {e : Event interface}
    (h : ∀ e ∈ es, IsText e) (he : e ∈ es.flatMap exchange) : IsText e := by
  obtain ⟨e', he', hmem⟩ := List.mem_flatMap.1 he
  rcases List.mem_cons.1 hmem with rfl | hmem
  · exact h e he'
  · exact isText_of_mem_releaseOf hmem

/-- A load fails exactly if a reply has a text that is not UTF-8, and asks nothing more after this
reply. Otherwise it asks once for each listed name, in the order of the list, and the catalog holds
what the replies say. -/
theorem load_outcome (h : ∀ e ∈ (load.run R s).events, HasWholeLists e) :
    let o := load.run R s
    ((∃ fault, o.value = .error (.invalidString (.notUtf8 fault))) ↔ ∃ e ∈ o.events, ¬IsText e) ∧
      (∀ before e after, o.events = before ++ e :: after → ¬IsText e → after = releaseOf e) ∧
      ((∀ e ∈ o.events, IsText e) → ∃ (l : NameList) (names : List String) (ds : List Details)
        (xs : List Details.Text) (k : ConverterList) (pairs : List (String × String)) (c : Catalog),
        l.Tells names ∧ ds.length = names.length ∧ List.Forall₂ Details.Tells ds xs ∧
          k.Tells pairs ∧ o.events = (loadEvents l (names.zip ds) k).flatMap exchange ∧
          o.value = .ok c ∧ (∀ key, (c.get? key).isSome = true ↔ key ∈ names) ∧
          c.Holds (names.zip xs) pairs) := by
  intro o
  rcases gathers_load R s h with
    ⟨es, c, hvalue, hevents, htexts, l, names, ds, xs, k, pairs, hl, hxs, hlength, hk, rfl, rfl⟩ |
    ⟨es, e, fault, hvalue, hevents, htexts, hbad⟩
  · have hall : ∀ e ∈ o.events, IsText e := fun e he =>
      isText_of_mem_exchanges htexts (hevents ▸ he)
    refine ⟨⟨?_, fun ⟨e, he, hbad⟩ => absurd (hall e he) hbad⟩, ?_, fun _ => ?_⟩
    · rintro ⟨fault, hfault⟩
      cases hvalue.symm.trans hfault
    · intro before e after hsplit hbad
      exact absurd (hall e (hsplit ▸ List.mem_append_right _ List.mem_cons_self)) hbad
    · have hholds := holds_ofParts (names.zip xs) pairs
      have hnames : (names.zip xs).map (·.1) = names :=
        List.map_fst_zip (hlength.symm.trans hxs.length_eq).le
      exact ⟨l, names, ds, xs, k, pairs, _, hl, hlength, hxs, hk, hevents, hvalue,
        fun key => by rw [hholds.keys, hnames], hholds⟩
  -- only the last reply has a text that is not UTF-8, so that the steps split before it alone
  · have hmem : e ∈ o.events := hevents ▸ List.mem_append_right _ List.mem_cons_self
    refine ⟨⟨fun _ => ⟨e, hmem, hbad⟩, fun _ => ⟨fault, hvalue⟩⟩, ?_, fun hall => ?_⟩
    · intro before e' after hsplit hbad'
      obtain ⟨-, rfl, rfl⟩ := (List.append_cons_inj_of_notMem
        (fun he' => hbad' (isText_of_mem_exchanges htexts he'))
        (fun he' => hbad' (isText_of_mem_releaseOf he'))).1 (hevents.symm.trans hsplit)
      rfl
    · exact absurd (hall e hmem) hbad

open Scripted in
/-- A registry with a null name and a name that is listed twice, and in which a parameter and a
converter are repeated. -/
def crowded : Scripted.State where
  script.transforms.rows := some [
    { name := some [65], output := some [66], parameters.rows := some [
      (some [112], some [97], none), (some [112], some [98], some [195, 164])] },
    { name := some [65] },
    { parameters.length := some (-1) }]
  script.converters.rows := some [(some [65], some [66]), (some [67], none), (some [65], some [68]),
    (some [65], some [66])]

theorem load_outcome_crowded :
    let o := load.run Scripted.engine crowded
    (∀ e ∈ o.events, HasWholeLists e) ∧ (∀ e ∈ o.events, IsText e) ∧ ∃ c, o.value = .ok c := by
  intro o
  have hwhole : ∀ e ∈ o.events, HasWholeLists e := by decide
  have htexts : ∀ e ∈ o.events, IsText e := by decide
  obtain ⟨l, names, ds, xs, k, pairs, c, -, -, -, -, -, hc, -⟩ := (load_outcome hwhole).2.2 htexts
  exact ⟨hwhole, htexts, c, hc⟩

example : (load.run Scripted.engine crowded).value.toOption.map (fun c =>
    (c.transforms.names, c.convertersFrom "A")) = some (["", "A"], ["B", "D"]) := by cbv

end Catalog

end AudioFeatures
