import ActiveRow.Proofs.Declaration.Relation
import ActiveRow.Proofs.Declaration.Table
import ActiveRow.Proofs.Text.Plural

/-!
# Tables and the relations that lead to them

A relation to many records that is given no name is named after the type of the records, as their
table is. The table has the plural of the name, but the relation only has an s behind it.

* `Declaration.hasMany_name_eq_table_iff`: the two agree exactly on types with a regular plural.
* `Declaration.categories_apart`: a type on which they do not.
-/

namespace ActiveRow

open Source Text

deriving instance DecidableEq for DeclaredRelation, Blueprint

instance decidableEqOk {ε α : Type} [DecidableEq α] (result : Except ε α) (a : α) :
    Decidable (result = .ok a) :=
  match result with
  | .ok b => decidable_of_iff (b = a) ⟨congrArg Except.ok, Except.ok.inj⟩
  | .error _ => .isFalse nofun

namespace DeclaredRelation

variable {options : List (String × String)}

theorem option?_eq_none {names : List String} (h : ∀ o ∈ options, o.1 ∉ names) :
    option? names options = none := by
  simpa [option?] using h

theorem exists_option? {name key : String} (h : (name, key) ∈ options) :
    ∃ key', option? [name] options = some key' := by
  have hsome : (options.reverse.find? fun o => [name].contains o.1).isSome := by
    rw [List.find?_isSome]
    exact ⟨_, List.mem_reverse.2 h, by simp⟩
  obtain ⟨o, ho⟩ := Option.isSome_iff_exists.1 hsome
  refine ⟨o.2, ?_⟩
  rw [option?, ho, Option.map_some]

/-- A relation with a foreign key and without a name gets the name of its model. -/
theorem ofOptions_unnamed {kind : RelationKind} (hkind : kind ≠ .belongsTo) (last model : String)
    {key : String} (hkey : ("foreign_key", key) ∈ options)
    (hname : ∀ o ∈ options, o.1 ∉ ["name", "as"]) :
    ∃ r, ofOptions kind last model options = .ok r ∧ r.name = defaultName kind last := by
  obtain ⟨key', hkey'⟩ := exists_option? hkey
  refine ⟨{ name := defaultName kind last, kind, model, foreignKey := key'
            localKey := option? ["local_key"] options }, ?_, rfl⟩
  simp only [ofOptions, hkey', hkind, option?_eq_none hname, false_and, if_false, Option.getD_none]
  rfl

end DeclaredRelation

namespace Declaration

open Blueprint (itemsSource)

/-- A type that names no table has the one that follows from its name. -/
theorem table_of_unnamed {d : Declaration} {b : Blueprint} (h : d.blueprint = .ok b)
    (hunnamed : ∀ items ∈ d.attributes, textsGiven "table" 0 (itemsSource items) = []) :
    b.table = tableName (typeName d.name) := by
  rcases table_of_blueprint h with htable | ⟨items, hitems, hgiven⟩
  · exact htable
  · rw [hunnamed items hitems] at hgiven
    cases hgiven

/-- The two names of a type agree exactly when its plural is the word with an s. -/
theorem defaultName_eq_tableName_iff (type : String) :
    DeclaredRelation.defaultName .hasMany type = tableName type ↔ ¬Irregular (snake type) :=
  eq_comm.trans plural_eq_append_s_iff

/-- **A relation to many records goes by the name of their table** exactly when the plural of their
type is regular. -/
theorem hasMany_name_eq_table_iff {related owner : Declaration} {b o : Blueprint}
    {type model key : String} (options : List (String × String)) (endsInComma : Bool)
    (htype : typeName related.name = type) (hrelated : related.blueprint = .ok b)
    (hunnamed : ∀ items ∈ related.attributes, textsGiven "table" 0 (itemsSource items) = [])
    (howner : owner.blueprint = .ok o) (hmodel : Spells type (lexemes model))
    (hreserved : type ∉ reserved)
    (hoptions : ∀ option ∈ options, option.1 ∈ ["foreign_key", "local_key"])
    (hkey : ("foreign_key", key) ∈ options) :
    ∃ r, blueprint { owner with
          attributes := owner.attributes ++ [[.relation .hasMany model options endsInComma]] } =
        .ok { o with relations := o.relations ++ [r] } ∧
      r.name = snake type ++ "s" ∧ b.table = plural (snake type) ∧
      (r.name = b.table ↔ ¬Irregular (snake type)) := by
  have hkeys : ∀ option ∈ options, option.1 = "foreign_key" ∨ option.1 = "local_key" := by
    simpa using hoptions
  have hknown : ∀ option ∈ options, DeclaredRelation.isOption option.1 = true := by
    intro option hoption
    rcases hkeys option hoption with h | h <;> rw [h] <;> rfl
  have hname : ∀ option ∈ options, option.1 ∉ ["name", "as"] := by
    intro option hoption
    rcases hkeys option hoption with h | h <;> rw [h] <;> decide
  obtain ⟨r, hr, hdefault⟩ := DeclaredRelation.ofOptions_unnamed
    (nofun : RelationKind.hasMany ≠ .belongsTo) type (DeclaredRelation.modelText (lexemes model))
    hkey hname
  have htable : b.table = tableName type := htype ▸ table_of_unnamed hrelated hunnamed
  refine ⟨r, ?_, hdefault, htable, ?_⟩
  · have hread := Blueprint.readItems_relation o hmodel hreserved hknown endsInComma hr
    have hbefore : blueprint { name := owner.name, shape := owner.shape
                               attributes := owner.attributes } = .ok o := howner
    rw [blueprint_append, hbefore]
    simp only [Except.bind, List.foldlM_cons, hread, List.foldlM_nil]
    rfl
  · rw [hdefault, htable]
    exact defaultName_eq_tableName_iff type

/-- The table of blog posts, and the posts of a user. -/
theorem hasMany_name_eq_table_blogPosts :
    ∃ (b : Blueprint) (r : DeclaredRelation),
      blueprint
        { name := "BlogPost<T>", shape := .fields [{ name := "record", type := "Record" }],
          attributes := [[.softDeletes, .casts [("table", "int")]]] } = .ok b ∧
      blueprint
        { name := "User", shape := .fields [{ name := "record", type := "Record" }],
          attributes := [[.timestamps], [.relation .hasMany "crate::models::BlogPost"
            [("foreign_key", "user_id")] true]] } =
        .ok { table := "users", timestamps := true, relations := [r], record := "record" } ∧
      b.table = "blog_posts" ∧ r.name = b.table := by
  have hmodel : lexemes "crate::models::BlogPost" =
      [.name "crate", .sign ':' true, .sign ':' false, .name "models", .sign ':' true,
        .sign ':' false, .name "BlogPost"] := by decide +kernel
  have hspells : Spells "BlogPost" (lexemes "crate::models::BlogPost") := by
    rw [hmodel]
    exact .within (.inr (by decide)) false (.within (.inl (by decide)) false .name)
  have hrelated : blueprint
      { name := "BlogPost<T>", shape := .fields [{ name := "record", type := "Record" }],
        attributes := [[.softDeletes, .casts [("table", "int")]]] } =
      .ok { table := "blog_posts", softDeletes := true, casts := [("table", .integer)],
            record := "record" } := by decide +kernel
  have howner : blueprint
      { name := "User", shape := .fields [{ name := "record", type := "Record" }],
        attributes := [[.timestamps]] } =
      .ok { table := "users", timestamps := true, record := "record" } := by decide +kernel
  obtain ⟨r, hread, -, -, hiff⟩ := hasMany_name_eq_table_iff
    [("foreign_key", "user_id")] true (by decide +kernel) hrelated
    (by decide +kernel) howner hspells (by decide) (by decide) List.mem_cons_self
  exact ⟨_, r, hrelated, hread, rfl, hiff.2 (by decide +kernel)⟩

/-- The table of categories, and the categories that belong to one of them. -/
theorem categories_apart :
    ∃ b r, blueprint
        { name := "Category", shape := .fields [{ name := "record", type := "Record" }],
          attributes := [[.relation .hasMany "Category" [("foreign_key", "parent_id")] false]] } =
        .ok b ∧
      b.relations = [r] ∧ r.name = "categorys" ∧ b.table = "categories" := by
  refine ⟨{ table := "categories", record := "record",
            relations := [{ name := "categorys", kind := .hasMany, model := "Category",
                            foreignKey := "parent_id" }] }, _, ?_, rfl, rfl, rfl⟩
  decide +kernel

end Declaration

end ActiveRow
