import AssetCatalog.Proofs.Layout.Naming
/-! # What belongs to different catalogs

Beside each catalog lie its icon package and the two files that it compiles to.  Their names have
the tag between two fixed texts, and no two of the endings, nor the suffix of a catalog, end in
one another.  So two of these places are the same only if they have the same role for catalogs
with the same directory and the same tag, and none of them is ever a catalog
(`belongings_apart`). -/

set_option autoImplicit false

namespace AssetCatalog.Layout

theorem Belonging.ending_unlike_catalog (what : Belonging) :
    ¬ what.ending.toList <:+ ".xcassets".toList ∧ ¬ ".xcassets".toList <:+ what.ending.toList := by
  cases what <;> decide

theorem belonging_ne_catalog {directory directory' : Place} {path path' : String} {a b : Layout}
    (named : ofPath directory path = .ok a) (catalogNamed : ofPath directory' path' = .ok b)
    (what : Belonging) : a.belonging what ≠ b.catalog := by
  have described := describes_of_ofPath catalogNamed
  have names := described.catalogChild.names
  rw [described.name] at names
  refine Place.ne_of_endings (names_belonging (tag_noSlash named) what) names
    (suffix_childName _ _ _) ?_ what.ending_unlike_catalog
  rw [String.toList_append]
  exact List.suffix_append _ _

/-- The places that belong to catalogs are the same exactly for the same role, the same directory
and the same tag, and none of them is a catalog. -/
theorem belongings_apart {directory directory' : Place} {path path' : String} {a b : Layout}
    (named : ofPath directory path = .ok a) (otherNamed : ofPath directory' path' = .ok b) :
    (∀ what other, (a.belonging what).text = (b.belonging other).text ↔
      what = other ∧ a.sourceDirectory.text = b.sourceDirectory.text ∧ a.tag = b.tag) ∧
    (∀ what, ∀ layout ∈ [a, b], ∀ cataloged ∈ [a, b],
      (layout.belonging what).text ≠ cataloged.catalog.text) ∧
    (∀ layout ∈ [a, b], ∀ what other,
      (layout.belonging what).text = (layout.belonging other).text ↔ what = other) ∧
    (a.sourceDirectory.text = b.sourceDirectory.text → a.tag ≠ b.tag →
      ∀ what other, (a.belonging what).text ≠ (b.belonging other).text) := by
  have freeA := tag_noSlash named
  have freeB := tag_noSlash otherNamed
  simp only [Place.text_inj, ne_eq, List.forall_mem_cons, List.not_mem_nil, false_implies,
    implies_true, and_true]
  refine ⟨belonging_eq_iff freeA freeB, fun what => ?_, ?_, ?_⟩
  · exact ⟨⟨belonging_ne_catalog named named what, belonging_ne_catalog named otherNamed what⟩,
      belonging_ne_catalog otherNamed named what, belonging_ne_catalog otherNamed otherNamed what⟩
  · simp [belonging_eq_iff freeA freeA, belonging_eq_iff freeB freeB]
  · intro _ differ what other same
    exact differ ((belonging_eq_iff freeA freeB what other).mp same).2.2

namespace Sample

/-- A catalog at the root whose tag is the separator alone. -/
def barelyTagged : Layout := ofNames (Place.root.resolve "/Assets_.xcassets") "Assets_" "_"

def untagged : Layout := ofNames (Place.root.resolve "/app.icns.xcassets") "app.icns" ""

theorem barely_tagged_apart :
    ofPath .root "Assets_.xcassets" = .ok barelyTagged ∧
    ofPath (Place.root.resolve "/w") "../app.icns.xcassets/" = .ok untagged ∧
    (∀ what other, (barelyTagged.belonging what).text ≠ (untagged.belonging other).text) ∧
    ∀ what, (untagged.belonging what).text ≠ untagged.catalog.text := by
  have named : ofPath .root "Assets_.xcassets" = .ok barelyTagged := by rfl
  have otherNamed : ofPath (Place.root.resolve "/w") "../app.icns.xcassets/" = .ok untagged := by
    rfl
  obtain ⟨_, catalogs, _, differ⟩ := belongings_apart named otherNamed
  refine ⟨named, otherNamed, differ (by decide) (by decide), fun what => ?_⟩
  exact catalogs what untagged (by simp) untagged (by simp)

end Sample

end AssetCatalog.Layout
