import Conditions.Loading
import Conditions.Proofs.Yaml.Shapes

/-!
# What a file leaves unsaid

Settings that are read from a text have their defaults wherever the document of the text has no
member for them (`ensures_parse`).
-/

namespace Conditions

open Yaml (Document Node Decode)

/-- The settings of a resolver have their defaults but where something is said. -/
structure ResolverSettings.DefaultsBut (said : List String → Prop) (s : ResolverSettings) :
    Prop where
  strict : ¬ said ["strict"] → s.strict = false
  caseInsensitive : ¬ said ["case_insensitive"] → s.caseInsensitive = false
  aliases : ¬ said ["aliases"] → s.aliases = []

/-- Settings have their defaults but where something is said. -/
structure Settings.DefaultsBut (said : List String → Prop) (s : Settings) : Prop where
  ordering : ¬ said ["ordering"] → s.ordering = .loose
  maxDepth : ¬ said ["max_depth"] → s.maxDepth = none
  resolver : s.resolver.DefaultsBut fun path => said ("resolver" :: path)

theorem mem_of_lookup {α : Type} {entries : List (String × α)} {name : String} {value : α}
    (h : entries.lookup name = some value) : (name, value) ∈ entries := by
  obtain ⟨before, after, rfl, -⟩ := List.lookup_eq_some_iff.mp h
  exact List.mem_append_right _ List.mem_cons_self

theorem ResolverSettings.defaultsBut_default (said : List String → Prop) :
    DefaultsBut said {} := ⟨fun _ => rfl, fun _ => rfl, fun _ => rfl⟩

theorem Settings.defaultsBut_default (said : List String → Prop) : DefaultsBut said {} :=
  ⟨fun _ => rfl, fun _ => rfl, ResolverSettings.defaultsBut_default _⟩

variable {said said' : List String → Prop}

/-- Where more is said, less has to be a default. -/
theorem ResolverSettings.DefaultsBut.mono {s : ResolverSettings} (hs : s.DefaultsBut said)
    (h : ∀ path, said path → said' path) : s.DefaultsBut said' :=
  ⟨fun h' => hs.strict (mt (h _) h'), fun h' => hs.caseInsensitive (mt (h _) h'),
    fun h' => hs.aliases (mt (h _) h')⟩

theorem Settings.DefaultsBut.mono {s : Settings} (hs : s.DefaultsBut said)
    (h : ∀ path, said path → said' path) : s.DefaultsBut said' :=
  ⟨fun h' => hs.ordering (mt (h _) h'), fun h' => hs.maxDepth (mt (h _) h'),
    hs.resolver.mono fun path => h ("resolver" :: path)⟩

/-! ### Reading -/

theorem ResolverSettings.gives_ofNode (doc : Document) (node : Node) :
    Decode.Gives (ofNode doc node) (DefaultsBut fun path => doc.HasPath path node) := by
  refine Decode.gives_shape (defaultsBut_default _) fun name field value hmember hfield => ?_
  have hname := mem_of_lookup hfield
  have hsaid : doc.HasPath [name] node := ⟨value, hmember, trivial⟩
  cases field with
  | strict =>
    obtain rfl : name = "strict" := by simpa [fieldNames] using hname
    exact (Decode.gives_true _).bind fun _ _ => Decode.gives_pure fun s hs =>
      ⟨fun h => absurd hsaid h, hs.caseInsensitive, hs.aliases⟩
  | caseInsensitive =>
    obtain rfl : name = "case_insensitive" := by simpa [fieldNames] using hname
    exact (Decode.gives_true _).bind fun _ _ => Decode.gives_pure fun s hs =>
      ⟨hs.strict, fun h => absurd hsaid h, hs.aliases⟩
  | aliases =>
    obtain rfl : name = "aliases" := by simpa [fieldNames] using hname
    exact (Decode.gives_true _).bind fun _ _ => Decode.gives_pure fun s hs =>
      ⟨hs.strict, hs.caseInsensitive, fun h => absurd hsaid h⟩

namespace Settings

theorem gives_ofNode (doc : Document) (node : Node) :
    Decode.Gives (ofNode doc node) (DefaultsBut fun path => doc.HasPath path node) := by
  refine Decode.gives_shape (defaultsBut_default _) fun name field value hmember hfield => ?_
  have hname := mem_of_lookup hfield
  have hsaid : doc.HasPath [name] node := ⟨value, hmember, trivial⟩
  cases field with
  | ordering =>
    obtain rfl : name = "ordering" := by simpa [fieldNames] using hname
    exact (Decode.gives_true _).bind fun _ _ => Decode.gives_pure fun s hs =>
      ⟨fun h => absurd hsaid h, hs.maxDepth, hs.resolver⟩
  | maxDepth =>
    obtain rfl : name = "max_depth" := by simpa [fieldNames] using hname
    exact (Decode.gives_true _).bind fun _ _ => Decode.gives_pure fun s hs =>
      ⟨hs.ordering, fun h => absurd hsaid h, hs.resolver⟩
  | resolver =>
    obtain rfl : name = "resolver" := by simpa [fieldNames] using hname
    -- what the value of the member says, the document says under the name of the member
    refine (ResolverSettings.gives_ofNode doc value).bind fun resolver hresolver => ?_
    exact Decode.gives_pure fun s hs =>
      ⟨hs.ordering, hs.maxDepth, hresolver.mono fun path hpath => ⟨value, hmember, hpath⟩⟩

/-- The document of a text leads along some names. -/
def Says (text : String) (path : List String) : Prop :=
  ∃ doc, Document.read text = .ok doc ∧ doc.HasPath path doc.root

/-- What is read is the defaults, or what the document holds and is not refused. -/
theorem ensures_parseYaml_of {P : Settings → Prop} {text : String} (hdefault : P {})
    (hdecode : ∀ doc s, Document.read text = .ok doc → doc.decode ofNode = .ok s →
      s.maxDepth ≠ some 0 → P s) : Ensures (parseYaml text) P := by
  unfold parseYaml
  split
  · exact ensures_ok hdefault
  · split
    · exact ensures_error _
    · next settings hread =>
      obtain ⟨doc, hdoc, hsettings⟩ := bind_eq_ok_iff.mp hread
      split
      · exact ensures_error _
      · next hzero => exact ensures_ok (hdecode doc settings hdoc hsettings hzero)

theorem ensures_parseYaml (text : String) : Ensures (parseYaml text) (DefaultsBut (Says text)) := by
  refine ensures_parseYaml_of (defaultsBut_default _) fun doc s hdoc hs _ => ?_
  have hdefaults := doc.ensures_decode (gives_ofNode doc doc.root) s hs
  exact hdefaults.mono fun path hpath => ⟨doc, hdoc, hpath⟩

/-- **What a text does not say has its default.** -/
theorem ensures_parse (text : String) : Ensures (Settings.parse text) (DefaultsBut (Says text)) :=
  (ensures_parseYaml text).mapError _

end Settings

end Conditions
