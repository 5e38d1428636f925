import LatencyLog.Proofs.Json.Escaping
import LatencyLog.Proofs.Json.Layouts
import LatencyLog.Topology.Json

/-!
# Topologies and their texts

A topology has many texts. White space, the order of members, members that mean nothing, hops in the form
of arrays and escapes where none is needed are all left open to who writes one. What is written here is one
text for each, which is read as the topology it was written for (`read?_written`). With that the other half
needs nothing more about texts: a text and what is written for its topology have the same topology, so
writing a second time changes nothing.
-/

namespace LatencyLog

namespace Hop

theorem ofJson?_ofFields (fields : List (String × Json)) :
    ofJson? (Json.ofFields fields) =
      (tag? "source" fields).bind fun source =>
        (tag? "destination" fields).bind fun destination => some ⟨source, destination⟩ := by
  have hread : ofJson? (Json.ofFields fields) =
      ((fields.map fun member => (Json.escape member.1.toList, member.2)).mapM Json.named?).bind
        fun members => (tag? "source" members).bind fun source =>
          (tag? "destination" members).bind fun destination => some ⟨source, destination⟩ := rfl
  rw [hread, Json.mapM_named?, Option.bind_some]

/-- **A hop is read from the tree that is written for it.** -/
theorem ofJson?_toJson (hop : Hop) : ofJson? hop.toJson = some hop := by
  rw [toJson, ofJson?_ofFields]
  simp [tag?]

theorem wellSpelled_toJson (hop : Hop) : hop.toJson.WellSpelled :=
  Json.wellSpelled_ofFields (by simp)

end Hop

namespace Topology

theorem ofJson?_toJson (topology : Topology) : ofJson? topology.toJson = some topology := by
  show (topology.map Hop.toJson).mapM Hop.ofJson? = some topology
  induction topology with
  | nil => rfl
  | cons hop topology ih => rw [List.map_cons, List.mapM_cons, Hop.ofJson?_toJson, ih]; rfl

theorem wellSpelled_toJson (topology : Topology) : topology.toJson.WellSpelled :=
  Json.wellSpelled_array (List.forall_mem_map.mpr fun hop _ => hop.wellSpelled_toJson)

/-- **What is written for a topology is read as that topology.** -/
theorem read?_written (topology : Topology) : read? topology.written = some topology := by
  rw [read?, written, Json.read?_compact topology.wellSpelled_toJson, Option.bind_some, ofJson?_toJson]

theorem written_injective : Function.Injective written := by
  intro topology other h
  have hread := read?_written topology
  rw [h, read?_written] at hread
  exact (Option.some.inj hread).symm

/-- What is written for the topology of a text. -/
def rewritten? (cs : List Char) : Option (List Char) := (read? cs).map written

/-- **Written and read, a topology is the same; read and written, a text stays as it has become.** The
texts that stay as they are are those that are written, and there is one for each topology, so two texts are
written alike exactly if they hold the same hops in the same order. -/
theorem round_trip :
    (∀ topology : Topology, read? topology.written = some topology) ∧
    (∀ cs topology, read? cs = some topology →
      read? topology.written = read? cs ∧ rewritten? topology.written = some topology.written) ∧
    (∀ cs, rewritten? cs = some cs ↔ ∃ topology : Topology, topology.written = cs) ∧
    ∀ cs cs' : List Char, rewritten? cs = rewritten? cs' ↔ read? cs = read? cs' := by
  refine ⟨read?_written, fun cs topology h => ?_, fun cs => ?_, fun cs cs' => ?_⟩
  · rw [h, rewritten?, read?_written, Option.map_some]
    exact ⟨rfl, rfl⟩
  · constructor
    · intro h
      obtain ⟨topology, _, hcs⟩ := Option.map_eq_some_iff.mp h
      exact ⟨topology, hcs⟩
    · rintro ⟨topology, rfl⟩
      rw [rewritten?, read?_written, Option.map_some]
  · exact (Option.map_injective written_injective).eq_iff

/-- Hops as an object and as an array, with white space, escapes and a member that means nothing. -/
def mixedText : List Char :=
  " [ \x7b\"destination\":\"b\\\"\", \"note\":[1, null], \"\\u0073ource\":\"\\u0061\"\x7d,\n\t[\"\\ud83d\\ude00\", \"\"] ] ".toList

theorem round_trip_mixedText :
    read? mixedText = some [⟨"a", "b\""⟩, ⟨"😀", ""⟩] ∧
      (∃ topology : Topology, rewritten? topology.written = some topology.written ∧
        read? topology.written = read? mixedText ∧ topology.written ≠ mixedText) := by
  have hread : read? mixedText = some [⟨"a", "b\""⟩, ⟨"😀", ""⟩] := by decide +kernel
  obtain ⟨hsame, hfixed⟩ := round_trip.2.1 _ _ hread
  exact ⟨hread, _, hfixed, hsame, by decide +kernel⟩

end Topology

end LatencyLog
