import FrozenGlobals.Schema.Globals
import Mathlib

/-!
# Declared properties

What a schema declares, said without the order in which it is computed: `Declares` relates a schema
to the definitions of properties that it and the schemas it is combined with make within a depth
limit, and `Defines` to the one definition of a name that counts. `declarations` lists the former
(`mem_declarations_iff`), and the first of them with a name is the latter
(`find?_declarations_iff`).

`value_declared` says what that makes of the data of a schema for objects that is not given a value:
an object with the declared properties and no other ones, each with the data of the definition that
counts. It takes the condition on given values, since a schema with such a value stands for that
value, whatever it declares: `default_hides_declared` is a schema for objects whose property is lost
that way.
-/

namespace FrozenGlobals.Schema

variable {limit : Int} {depth : Nat} {k : Keywords Schema} {s : Schema} {d e : Declaration}

/-! ## Definitions of properties -/

/-- A definition of a property, made by a schema or by one it is combined with, however often. A
schema beyond the limit makes none. -/
inductive Declares (limit : Int) : Nat → Schema → Declaration → Prop where
  | own {depth : Nat} {k : Keywords Schema} {name : String} {s : Schema} :
      ¬ isBeyond limit depth → (name, s) ∈ k.properties →
      Declares limit depth (.keywords k) ⟨name, depth + 1, s⟩
  | branch {depth : Nat} {k : Keywords Schema} {b : Schema} {d : Declaration} :
      ¬ isBeyond limit depth → b ∈ k.branches → Declares limit (depth + 1) b d →
      Declares limit depth (.keywords k) d

/-- The definition of a name that counts: the schema's own one, or else that of the first branch
that declares the name. -/
inductive Defines (limit : Int) (name : String) : Nat → Schema → Declaration → Prop where
  | own {depth : Nat} {k : Keywords Schema} {before after : List (String × Schema)} {s : Schema} :
      ¬ isBeyond limit depth → k.properties = before ++ (name, s) :: after →
      (∀ p ∈ before, p.1 ≠ name) → Defines limit name depth (.keywords k) ⟨name, depth + 1, s⟩
  | branch {depth : Nat} {k : Keywords Schema} {before after : List Schema} {b : Schema}
      {d : Declaration} :
      ¬ isBeyond limit depth → (∀ p ∈ k.properties, p.1 ≠ name) →
      k.branches = before ++ b :: after →
      (∀ c ∈ before, ∀ e, Declares limit (depth + 1) c e → e.name ≠ name) →
      Defines limit name (depth + 1) b d → Defines limit name depth (.keywords k) d

/-! ## The list of definitions -/

/-- Beyond the limit nothing is declared. -/
theorem declarations_beyond (h : isBeyond limit depth) (s : Schema) :
    s.declarations limit depth = [] := by
  cases s with
  | unstated => rw [declarations]
  | keywords k => rw [declarations, if_pos h]

/-- Within the limit a schema declares its properties, and what its branches declare. -/
theorem declarations_within (h : ¬ isBeyond limit depth) (k : Keywords Schema) :
    (keywords k).declarations limit depth =
      k.properties.map (fun (name, s) => ⟨name, depth + 1, s⟩) ++
      k.branches.flatMap (declarations limit (depth + 1)) := by
  rw [declarations, if_neg h, List.flatMap]
  congr 2
  exact List.attach_map_val ..

/-- The declarations computed are those that a schema has. -/
theorem mem_declarations_iff : d ∈ s.declarations limit depth ↔ Declares limit depth s d := by
  constructor
  · intro hd
    fun_induction declarations limit depth s with
    | case1 => cases hd
    | case2 => cases hd
    | case3 depth k hin ih =>
      rcases List.mem_append.1 hd with hd | hd
      · obtain ⟨⟨name, s⟩, hs, rfl⟩ := List.mem_map.1 hd
        exact .own hin hs
      · obtain ⟨l, hl, hd⟩ := List.mem_flatten.1 hd
        obtain ⟨⟨b, hb⟩, _, rfl⟩ := List.mem_map.1 hl
        exact .branch hin hb (ih b hb hd)
  · intro hd
    induction hd with
    | own hin hs =>
      rw [declarations_within hin]
      exact List.mem_append_left _ (List.mem_map.2 ⟨_, hs, rfl⟩)
    | branch hin hb _ ih =>
      rw [declarations_within hin]
      exact List.mem_append_right _ (List.mem_flatMap.2 ⟨_, hb, ih⟩)

/-- No definition of a name is listed if and only if none is made. -/
theorem find?_declarations_none_iff {name : String} :
    (s.declarations limit depth).find? (·.name == name) = none ↔
      ∀ d, Declares limit depth s d → d.name ≠ name := by
  simp only [List.find?_eq_none, beq_iff_eq, mem_declarations_iff, ne_eq]

/-- The first definition of a name is looked for among the schema's own ones, then branch by
branch. -/
theorem find?_declarations_within (h : ¬ isBeyond limit depth) (k : Keywords Schema)
    (name : String) :
    ((keywords k).declarations limit depth).find? (·.name == name) =
      ((k.properties.find? (·.1 == name)).map fun (name, s) =>
        (⟨name, depth + 1, s⟩ : Declaration)).or
        (k.branches.findSome? fun b =>
          (b.declarations limit (depth + 1)).find? (·.name == name)) := by
  rw [declarations_within h, List.find?_append, List.find?_map, List.find?_flatMap]
  rfl

/-- The definition of a name that counts is the first one listed. -/
theorem find?_declarations_iff {name : String} :
    (s.declarations limit depth).find? (·.name == name) = some d ↔
      Defines limit name depth s d := by
  constructor
  · intro hd
    induction depth, s using declarations.induct limit with
    | case1 depth =>
      rw [declarations] at hd
      cases hd
    | case2 depth k hout =>
      rw [declarations_beyond hout] at hd
      cases hd
    | case3 depth k hin ih =>
      rw [find?_declarations_within hin, Option.or_eq_some_iff] at hd
      rcases hd with hown | ⟨hnone, hbranch⟩
      · obtain ⟨⟨n, s⟩, hfind, rfl⟩ := Option.map_eq_some_iff.1 hown
        obtain ⟨hn, before, after, hprops, hbefore⟩ := List.find?_eq_some_iff_append.1 hfind
        obtain rfl : n = name := eq_of_beq hn
        exact .own hin hprops fun p hp heq => by simpa [heq] using hbefore p hp
      · have hprops := List.find?_eq_none.1 (Option.map_eq_none_iff.1 hnone)
        obtain ⟨before, b, after, hbranches, hb, hbefore⟩ := List.findSome?_eq_some_iff.1 hbranch
        have hmem : b ∈ k.branches := hbranches ▸ List.mem_append_right _ List.mem_cons_self
        exact .branch hin (fun p hp heq => hprops p hp (beq_iff_eq.2 heq)) hbranches
          (fun c hc => find?_declarations_none_iff.1 (hbefore c hc)) (ih b hmem hb)
  · intro hd
    induction hd with
    | own hin hprops hbefore =>
      rw [find?_declarations_within hin, hprops, List.find?_append, List.find?_eq_none.2,
        List.find?_cons_of_pos]
      · rfl
      · exact beq_self_eq_true name
      · exact fun p hp heq => hbefore p hp (eq_of_beq heq)
    | branch hin hprops hbranches hbefore _ ih =>
      rw [find?_declarations_within hin, List.find?_eq_none.2 fun p hp heq =>
        hprops p hp (eq_of_beq heq)]
      refine List.findSome?_eq_some_iff.2 ⟨_, _, _, hbranches, ih, fun c hc => ?_⟩
      exact find?_declarations_none_iff.2 (hbefore c hc)

/-! ## First definitions -/

/-- Of the declarations of a name the first one counts. -/
theorem mem_firstDefinitions_iff {l : List Declaration} :
    d ∈ firstDefinitions l ↔ l.find? (·.name == d.name) = some d := by
  induction l with
  | nil => simp [firstDefinitions]
  | cons e l ih =>
    rw [firstDefinitions, List.mem_cons, List.mem_filter, ih]
    by_cases hname : e.name = d.name
    · simp [hname, eq_comm]
    · have hne : d ≠ e := fun h => hname (h ▸ rfl)
      rw [List.find?_cons_of_neg (by simpa using hname)]
      simp [hne, Ne.symm hname]

/-- No name has two first definitions. -/
theorem nodup_firstDefinitions (l : List Declaration) :
    ((firstDefinitions l).map (·.name)).Nodup := by
  induction l with
  | nil => exact List.nodup_nil
  | cons e l ih =>
    rw [firstDefinitions, List.map_cons, List.nodup_cons]
    refine ⟨fun hmem => ?_, ih.sublist (List.filter_sublist.map _)⟩
    obtain ⟨d, hd, heq⟩ := List.mem_map.1 hmem
    simp [heq] at hd

/-- The definitions whose data an object gets are those that count. -/
theorem mem_firstDefinitions_declarations_iff :
    d ∈ firstDefinitions (s.declarations limit depth) ↔ Defines limit d.name depth s d := by
  rw [mem_firstDefinitions_iff, find?_declarations_iff]

/-- A name that is declared has a definition that counts. -/
theorem Declares.exists_defines (h : Declares limit depth s d) :
    ∃ e, Defines limit d.name depth s e := by
  cases hfind : (s.declarations limit depth).find? (·.name == d.name) with
  | none => exact absurd rfl (find?_declarations_none_iff.1 hfind d h)
  | some e => exact ⟨e, find?_declarations_iff.1 hfind⟩

/-- A definition is one of the declarations. -/
theorem Defines.declares {name : String} (h : Defines limit name depth s d) :
    Declares limit depth s d :=
  mem_declarations_iff.1 (List.mem_of_find?_eq_some (find?_declarations_iff.2 h))

/-- A definition has the name that it defines. -/
theorem Defines.name_eq {name : String} (h : Defines limit name depth s d) : d.name = name := by
  simpa using List.find?_some (find?_declarations_iff.2 h)

/-! ## The data of a schema -/

/-- The entry for a definition. -/
def entry (limit : Int) (d : Declaration) : Except SchemaFault (String × Host.Tree) :=
  match value limit d.depth d.schema with
  | .ok tree => .ok (d.name, tree)
  | .error cause => .error (.inProperty d.name cause)

/-- Entries are made one by one, up to the first one that cannot be made. -/
theorem mapM_entry (limit : Int) (ds : List Declaration) :
    (∃ entries, ds.mapM (entry limit) = .ok entries ∧ entries.map (·.1) = ds.map (·.name) ∧
      ∀ d ∈ ds, ∃ tree, value limit d.depth d.schema = .ok tree ∧ (d.name, tree) ∈ entries) ∨
    ∃ d ∈ ds, ∃ cause, value limit d.depth d.schema = .error cause ∧
      ds.mapM (entry limit) = .error (.inProperty d.name cause) := by
  induction ds with
  | nil => exact .inl ⟨[], rfl, rfl, fun _ h => absurd h List.not_mem_nil⟩
  | cons d ds ih =>
    rw [List.mapM_cons]
    cases hd : value limit d.depth d.schema with
    | error cause =>
      exact .inr ⟨d, List.mem_cons_self, cause, hd, by simp [entry, hd]; rfl⟩
    | ok tree =>
      have hentry : entry limit d = .ok (d.name, tree) := by simp [entry, hd]
      rcases ih with ⟨entries, hentries, hnames, htrees⟩ | ⟨e, he, cause, hcause, herror⟩
      · refine .inl ⟨(d.name, tree) :: entries, by rw [hentry, hentries]; rfl, ?_, ?_⟩
        · rw [List.map_cons, List.map_cons, hnames]
        · intro e he
          rcases List.mem_cons.1 he with rfl | he
          · exact ⟨tree, hd, List.mem_cons_self⟩
          · obtain ⟨t, ht, hmem⟩ := htrees e he
            exact ⟨t, ht, List.mem_cons_of_mem _ hmem⟩
      · exact .inr ⟨e, List.mem_cons_of_mem _ he, cause, hcause, by rw [hentry, herror]; rfl⟩

/-- The data of a schema for objects that is not given a value is made of the entries for its first
definitions. -/
theorem value_eq_entries (hin : ¬ isBeyond limit depth) (hgiven : k.literal? = none)
    (hobject : (keywords k).mightBe "object") (hshape : k.hasObjectShape) :
    value limit depth (.keywords k) =
      (firstDefinitions ((keywords k).declarations limit depth)).mapM (entry limit) >>=
        fun entries => return .record entries := by
  rw [value, if_neg hin, hgiven]
  simp only [hobject, hshape, Bool.and_self, if_true]
  rw [List.mapM_subtype (g := entry limit)]
  · rw [List.unattach_attach]
  · intro d hd
    rfl

/-- The data of a schema for objects that is not given a value, at any depth within the limit: an
object whose keys are the names that are declared, each once and with the data of the definition
that counts. If there is none, then since such a definition has no data. -/
theorem value_declared (hin : ¬ isBeyond limit depth) (hgiven : k.literal? = none)
    (hobject : (keywords k).mightBe "object") (hshape : k.hasObjectShape) :
    (∃ entries, value limit depth (.keywords k) = .ok (.record entries) ∧
      (entries.map (·.1)).Nodup ∧
      (∀ p ∈ entries, ∃ d, Declares limit depth (.keywords k) d ∧ d.name = p.1) ∧
      ∀ d, Declares limit depth (.keywords k) d →
        ∃ e tree, Defines limit d.name depth (.keywords k) e ∧
        value limit e.depth e.schema = .ok tree ∧ (d.name, tree) ∈ entries) ∨
    ∃ name d cause, Defines limit name depth (.keywords k) d ∧
      value limit d.depth d.schema = .error cause ∧
      value limit depth (.keywords k) = .error (.inProperty name cause) := by
  have hvalue := value_eq_entries hin hgiven hobject hshape
  rcases mapM_entry limit (firstDefinitions ((keywords k).declarations limit depth)) with
    ⟨entries, hentries, hnames, htrees⟩ | ⟨d, hd, cause, hcause, herror⟩
  · rw [hentries] at hvalue
    refine .inl ⟨entries, hvalue, hnames ▸ nodup_firstDefinitions _, fun p hp => ?_, fun d hd => ?_⟩
    · have hp : p.1 ∈ entries.map (·.1) := List.mem_map_of_mem hp
      rw [hnames] at hp
      obtain ⟨d, hd, hname⟩ := List.mem_map.1 hp
      exact ⟨d, (mem_firstDefinitions_declarations_iff.1 hd).declares, hname⟩
    · obtain ⟨e, he⟩ := hd.exists_defines
      have hname : e.name = d.name := he.name_eq
      obtain ⟨tree, htree, hmem⟩ := htrees e (mem_firstDefinitions_declarations_iff.2 (hname ▸ he))
      exact ⟨e, tree, he, htree, hname ▸ hmem⟩
  · rw [herror] at hvalue
    exact .inr ⟨d.name, d, cause, mem_firstDefinitions_declarations_iff.1 hd, hcause, hvalue⟩

/-- A schema that says nothing but what its types are. -/
def typed (types : List String) : Keywords Schema :=
  { const := none, default := none, enum := [], types, properties := [], allOf := none,
    anyOf := none
    oneOf := none, items := none, prefixItems := [], examples := [], sample := none }

/-- Two objects combined, which both declare an `id`. -/
def combined : Keywords Schema :=
  { typed [] with allOf := some [
      .keywords { typed ["object"] with properties := [("id", .keywords (typed ["integer"]))] },
      .keywords { typed ["object"] with properties := [("id", .keywords (typed ["string"]))] }] }

/-- Of two branches that declare a property the first one counts. -/
theorem value_declared_combined :
    ∃ entries, value 16 1 (.keywords combined) = .ok (.record entries) ∧
      ("id", .integer false 0) ∈ entries := by
  have hlist : (keywords combined).declarations 16 1 =
      [⟨"id", 3, .keywords (typed ["integer"])⟩, ⟨"id", 3, .keywords (typed ["string"])⟩] := by
    simp [declarations, combined, isBeyond, Keywords.branches, typed]
  have hvalue : value 16 3 (.keywords (typed ["integer"])) = .ok (.integer false 0) := by
    simp [value, mightBe, isBeyond, Keywords.literal?, Keywords.sample?, Keywords.emptyValue, typed]
  have hfirst : ∀ {name d}, Defines 16 name 1 (.keywords combined) d →
      d = ⟨"id", 3, .keywords (typed ["integer"])⟩ := by
    intro name d hd
    have hname := hd.name_eq
    have hfind := find?_declarations_iff.2 hd
    rw [hlist] at hfind
    by_cases h : "id" = name <;> simp [h] at hfind
    · exact h ▸ hfind.symm
  have hin : ¬ isBeyond 16 1 := by decide
  have hobject : (keywords combined).mightBe "object" := by simp [mightBe, combined, typed]
  rcases value_declared hin rfl hobject rfl with
    ⟨entries, hentries, -, -, hmem⟩ | ⟨name, d, cause, hd, herror, -⟩
  · obtain ⟨e, tree, he, htree, hmem⟩ :=
      hmem ⟨"id", 3, .keywords (typed ["integer"])⟩
        (mem_declarations_iff.1 (hlist ▸ List.mem_cons_self))
    rw [hfirst he, hvalue] at htree
    cases htree
    exact ⟨entries, hentries, hmem⟩
  · rw [hfirst hd, hvalue] at herror
    cases herror

/-- A schema for objects that declares a property, and has a default that is empty. -/
def defaulted : Keywords Schema :=
  { typed ["object"] with
    default := some (.mapping 1 []), properties := [("a", .keywords (typed ["integer"]))] }

/-- A default takes the place of the properties that are declared. -/
theorem default_hides_declared :
    (keywords defaulted).mightBe "object" ∧ defaulted.hasObjectShape ∧
      Declares 16 0 (.keywords defaulted) ⟨"a", 1, .keywords (typed ["integer"])⟩ ∧
      globals 16 (.keywords defaulted) = .ok [] := by
  refine ⟨by simp [mightBe, defaulted, typed], rfl, .own (by decide) List.mem_cons_self, ?_⟩
  rw [globals, value]
  · rfl
  · intro h
    cases h

end FrozenGlobals.Schema
