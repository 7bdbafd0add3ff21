import Netfyr.Schema.Refined
import Netfyr.Policy.Load

/-!
# Panics Are Unreachable

The source expects, in some twenty places, something that another module has
established: that a node has a type, that a registry has a base, that a value
passed the type test, that a trigger is a map, that one mapping yields one state.
None of them is ever wrong, whatever the registry was extended by, and whatever
is read, validated, pruned or produced with it.

A registry is `Panicless` when its own functions are present everywhere. The
registries that the source reaches are, being typed ones forgotten, and so is
the registry with the providers' triggers, along which policies are loaded.

## Main definitions

* `Raw.Registry.Panicless`: Nothing the registry does panics.

## Theorems

* `SchemaRegistry.raw_panicless`: Every typed registry is panicless.
* `panics_unreachable`: Nothing panics, up to the loading of a policy.
-/

namespace Netfyr

/-- Nothing that the registry does panics. -/
structure Raw.Registry.Panicless (parse : String → Except String SchemaNode)
    (registry : Raw.Registry) : Prop where
  extension : ∀ fragment path json,
    (registry.addSchemaNode parse fragment path json).isSome = true
  decoding : ∀ tree, (registry.treeToParts tree).run.isSome = true
  validation : ∀ state, (registry.validate state).isSome = true
  writableValidation : ∀ state, (registry.validateWritable state).isSome = true
  pruning : ∀ state, (registry.removeReadOnlyFields state).isSome = true

/-- What the source takes for granted, typed registries carry. -/
theorem SchemaRegistry.raw_panicless (parse : String → Except String SchemaNode)
    (registry : SchemaRegistry) : registry.raw.Panicless parse where
  extension fragment path json := by
    rw [Raw.addSchemaNode_raw, Option.isSome_some]
  decoding tree := Raw.treeToParts_isSome tree
  validation state := by
    rw [Raw.Registry.validate, Raw.validateInner_raw, Option.isSome_some]
  writableValidation state := by
    rw [Raw.Registry.validateWritable, Raw.validateInner_raw, Option.isSome_some]
  pruning state := by
    rw [Raw.removeReadOnlyFields_raw, Option.isSome_some]

/-- Nothing panics in a registry that successful extensions lead to, in the
    registry along which policies are loaded, in the production of a policy, or
    in its loading when text that was printed is read as what was printed. -/
theorem panics_unreachable {parse : String → Except String SchemaNode}
    {parseYaml : String → Except String YamlValue} {print : YamlValue → Except String String}
    {registry : Raw.Registry} (hreach : registry.Reachable parse)
    (hprint : ∀ tree text, print tree = .ok text → parseYaml text = .ok tree) :
    registry.Panicless parse ∧ ProviderRegistry.schemaRegistry.raw.Panicless parse ∧
      (∀ policy : Policy, policy.produce.isSome = true) ∧
        ∀ entries fallbackName matchBy,
          (policyFromMapping parseYaml print entries fallbackName matchBy).run.isSome = true := by
  rcases hreach.exists_raw with ⟨typed, _, rfl⟩
  have hproviders := ProviderRegistry.schemaRegistry.raw_panicless parse
  exact ⟨typed.raw_panicless parse, hproviders, Policy.produce_isSome,
    policyFromMapping_isSome hprint⟩

/-- A printer that knows the text of one tree. -/
def printOnlyLan (tree : YamlValue) : Except String String :=
  match tree with
  | .mapping [(.string "match", .mapping [(.string "name", .string "eth0")]),
      (.string "mtu", .number (.unsigned 1280))] => .ok lanText
  | _ => .error "unexpected tree"

theorem printOnlyLan_parses {tree : YamlValue} {text : String}
    (h : printOnlyLan tree = .ok text) : parseLan text = .ok tree := by
  unfold printOnlyLan at h
  split at h
  · obtain rfl := Except.ok.inj h
    exact if_pos rfl
  · exact absurd h (by simp only [reduceCtorEq, not_false_eq_true])

theorem panics_unreachable_embedded :
    SchemaRegistry.new.raw.Panicless (fun _ => .error "no schema") ∧
      ProviderRegistry.schemaRegistry.raw.Panicless (fun _ => .error "no schema") ∧
      (∀ policy : Policy, policy.produce.isSome = true) ∧
        ∀ entries fallbackName matchBy,
          (policyFromMapping parseLan printOnlyLan entries fallbackName matchBy).run.isSome =
            true :=
  panics_unreachable (.new Raw.new_raw) fun _ _ => printOnlyLan_parses

end Netfyr
