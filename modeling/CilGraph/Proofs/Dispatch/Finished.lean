import CilGraph.Proofs.Dispatch.Agreement
import CilGraph.Proofs.Dispatch.Overriding

namespace CilGraph
namespace Dispatch

/-!
# Finished tables

At the end every layout of a registry gives one table, placed and with its
conversions filled in.  The table carries the token and the name of its type, and
neither placing nor converting changes them.

Tables are handed out in the order of their names.  In a program that was built
no two types share a name, so the order is strict, and the tables depend on which
types are registered and on nothing else.
-/

namespace Layout

/-- The table of a layout, placed and with its conversions. -/
def finished (pointerSize : UInt32) (layout : Layout) : Table :=
  (layout.table.place pointerSize).convert

theorem type_finished (pointerSize : UInt32) (layout : Layout) :
    (layout.finished pointerSize).type = layout.type.token :=
  rfl

theorem name_finished (pointerSize : UInt32) (layout : Layout) :
    (layout.finished pointerSize).name = layout.type.fullName :=
  rfl

/-- Sorting methods leaves the type of a layout alone. -/
theorem type_of_addMethods {linkage : Linkage} {layout final : Layout}
    (sorted : layout.addMethods linkage = .ok final) : final.type = layout.type := by
  rcases Result.bind_eq_ok.mp sorted with ⟨methods, _, folded⟩
  refine Layout.foldlM_addMethod (fun _ current => current.type = layout.type) folded rfl ?_
  intro _ method current next _ _ kept step
  exact step.kept.1.trans kept

end Layout

namespace Registry

variable {linkage : Linkage} {registry first second : Registry}

/-- A layout stands under the token of its type. -/
theorem Grows.typeDef_of_mem (grown : Grows linkage {} registry) {token : Token} {layout : Layout}
    (member : (token, layout) ∈ registry.layouts) :
    linkage.program.typeDef token = .ok layout.type := by
  rcases grown.made_of_mem member with ⟨type, resolved, base, interfaces, tables, origin⟩
  rw [origin.declared, Layout.type_of_addMethods origin.sorted]
  rfl

theorem mem_compile {pointerSize : UInt32} {table : Table} :
    table ∈ registry.compile pointerSize ↔
      exists token layout, (token, layout) ∈ registry.layouts ∧
        layout.finished pointerSize = table := by
  unfold compile
  rw [Ordered.mem_sortBy, List.mem_map]
  constructor
  · rintro ⟨⟨token, layout⟩, member, same⟩
    exact ⟨token, layout, member, same⟩
  · rintro ⟨token, layout, member, same⟩
    exact ⟨(token, layout), member, same⟩

/-- Layouts whose tables share a name are the same. -/
theorem Grows.eq_of_name (grown : Grows linkage {} registry)
    (apart : linkage.program.TellsApart) {entry other : Token × Layout}
    (isEntry : entry ∈ registry.layouts) (isOther : other ∈ registry.layouts)
    (same : entry.2.type.fullName = other.2.type.fullName) : entry = other := by
  rcases Program.token_of_typeDef (grown.typeDef_of_mem isEntry) with ⟨among, isToken⟩
  rcases Program.token_of_typeDef (grown.typeDef_of_mem isOther) with ⟨amongThen, isTokenThen⟩
  have sameType := apart.names entry.2.type other.2.type among amongThen same
  have distinct : (registry.layouts.map Prod.fst).Nodup := grown.nodup_types List.nodup_nil
  refine List.inj_on_of_nodup_map distinct isEntry isOther ?_
  rw [← isToken, ← isTokenThen, sameType]

/-- No two tables share a name. -/
theorem Grows.nodup_names (grown : Grows linkage {} registry)
    (apart : linkage.program.TellsApart) (pointerSize : UInt32) :
    ((registry.layouts.map (fun entry => entry.2.finished pointerSize)).map Table.name).Nodup := by
  have distinct : registry.layouts.Nodup :=
    List.Nodup.of_map Prod.fst (grown.nodup_types List.nodup_nil)
  rw [List.map_map]
  exact List.Nodup.map_on (fun entry isEntry other isOther same =>
    grown.eq_of_name apart isEntry isOther same) distinct

/-- Tables are handed out in the order of their names. -/
theorem pairwise_compile (registry : Registry) (pointerSize : UInt32) :
    (registry.compile pointerSize).Pairwise (fun first second => first.name ≤ second.name) :=
  Ordered.pairwise_sortBy _

theorem Grows.nodup_compile (grown : Grows linkage {} registry)
    (apart : linkage.program.TellsApart) (pointerSize : UInt32) :
    ((registry.compile pointerSize).map Table.name).Nodup :=
  ((Ordered.sortBy_perm _ _).map Table.name).nodup_iff.mpr (grown.nodup_names apart pointerSize)

/-- Registries with the same types give the same tables in the same order. -/
theorem compile_eq_of_types (grown : Grows linkage {} first) (other : Grows linkage {} second)
    (apart : linkage.program.TellsApart)
    (sameTypes : forall type, type ∈ first.types ↔ type ∈ second.types) (pointerSize : UInt32) :
    first.compile pointerSize = second.compile pointerSize := by
  have included : forall {left right : Registry}, Grows linkage {} left ->
      Grows linkage {} right -> (forall type, type ∈ left.types -> type ∈ right.types) ->
      forall entry, entry ∈ left.layouts -> entry ∈ right.layouts := by
    rintro left right grownLeft grownRight contained ⟨token, layout⟩ member
    have found := grownLeft.layout?_of_mem member
    rcases mem_types_iff.mp (contained token (mem_types_iff.mpr ⟨layout, found⟩)) with
      ⟨rival, rivalFound⟩
    rw [grownLeft.agree grownRight found rivalFound]
    exact mem_layouts_of_layout? rivalFound
  have perm : first.layouts.Perm second.layouts := by
    have distinctFirst : first.layouts.Nodup :=
      List.Nodup.of_map Prod.fst (grown.nodup_types List.nodup_nil)
    have distinctSecond : second.layouts.Nodup :=
      List.Nodup.of_map Prod.fst (other.nodup_types List.nodup_nil)
    refine (List.perm_ext_iff_of_nodup distinctFirst distinctSecond).mpr (fun entry => ?_)
    exact ⟨included grown other (fun type => (sameTypes type).mp) entry,
      included other grown (fun type => (sameTypes type).mpr) entry⟩
  exact Ordered.sortBy_eq_of_perm (perm.map _) (grown.nodup_names apart pointerSize)

end Registry
end Dispatch
end CilGraph
