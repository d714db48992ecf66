import ScriptEngine.Proofs.JsonReader
import ScriptEngine.Proofs.JsonSpelling
import ScriptEngine.Proofs.JsonValue

/-!
# JSON trees, there and back

A JSON tree that is turned into a value and written as a text is spelled by the text, with the
members of its objects in the order in which objects list them. Any library that is right about the
grammar of JSON reads the tree back.

## Main definitions

* `Value.AsksForBlanks`: an argument that asks for an indentation by blanks.

## Main results

* `stringifyJson_toValue`: the text of the value of a tree spells the tree and is read as it.
-/

namespace ScriptEngine

open Engine

variable {H : HostTypes}

/-! ### Indentation by blanks -/

/-- A primitive argument that asks for an indentation by nothing but blanks. -/
structure Value.AsksForBlanks (space : Value) : Prop where
  isObject : space.isObject = false
  isBlank : Json.IsBlank space.gap.toList

namespace Value

/-- A number asks for blanks. -/
theorem asksForBlanks_number (x : Float) : (number x).AsksForBlanks := by
  refine ⟨rfl, fun c hc => ?_⟩
  simp only [gap, String.toList_ofList] at hc
  rw [List.eq_of_mem_replicate hc]
  rfl

/-- A string of blanks asks for blanks. -/
theorem asksForBlanks_string {s : String} (h : Json.IsBlank s.toList) :
    (string s).AsksForBlanks := by
  refine ⟨rfl, ?_⟩
  have hunits : ∀ c ∈ s.toList, Text.charUnits c = [UInt16.ofNat c.toNat] := by
    intro c hc
    have hspace := h c hc
    simp only [Json.isSpace, Bool.or_eq_true, decide_eq_true_eq] at hspace
    rcases hspace with ((rfl | rfl) | rfl) | rfl <;> rfl
  have htake : (Text.units s).take 10 = (s.toList.take 10).flatMap Text.charUnits := by
    rw [Text.units, List.flatMap_congr hunits, List.flatMap_congr fun c hc =>
      hunits c (List.mem_of_mem_take hc), ← List.map_eq_flatMap, ← List.map_eq_flatMap,
      List.map_take]
  rw [gap, htake, Text.ofUnits, Text.decode_flatMap_charUnits, String.toList_ofList]
  exact fun c hc => h c (List.mem_of_mem_take hc)

end Value

/-! ### There and back -/

section RoundTrip

variable {bound depth n : Nat} {realm : Realm H} {t : Json} {replacer space : Value}

/-- The text of the value of a tree spells the tree with its numbers as doubles, and with the
members of its objects so that those whose names are indices come first, in ascending order, and the
others follow in theirs. A correct library reads the text as that tree. -/
theorem stringifyJson_toValue (host : Host H) (hlibrary : H.json.Correct depth)
    (ht : t.WellFormed (fun x => x.isFinite ∧ x ≠ Number.negZero) depth)
    (hreplacer : replacer.isObject = false) (hspace : space.AsksForBlanks)
    (hlacks : realm.LacksReplacement n)
    (hl : ¬(realm.atDepth (realm.callDepth + n + 3)).AtLimit)
    (hb : realm.heap.size + t.containers + 3 ≤ bound) :
    ∃ text after,
      (do stringifyJson (← t.toValue) replacer space : Engine H Value).run host bound realm
        = .ok (.string text) after
      ∧ Json.Spells depth text.toList t.exchanged
      ∧ ∃ t', H.json.parse text = .ok t' ∧ t'.floats = t.exchanged := by
  obtain ⟨middle, v, hgives, hgrows, hv⟩ := ht.builds (fun _ hx => hx.1) realm
    fun hlimit => hl (Realm.atLimit_of_le (m := realm.callDepth + 2) (by omega) hlimit)
  have hlacks' : middle.LacksReplacement n := hlacks.retained hgrows
  have hl' : ¬(middle.atDepth (middle.callDepth + (n + 1) + 2)).AtLimit := by
    rw [hgrows.rest]
    exact hl
  have hsize := hgrows.size
  have hbound : middle.heap.size + 3 ≤ bound := by omega
  rcases stringifyJson_cases host hreplacer hspace.isObject (hv.leadsToData hlacks')
    (hv.searchesWithin hlacks') hl' hbound
    with ⟨t?, hunfolds, hok⟩ | ⟨hcircular, -⟩
  · obtain rfl := hv.unfolds.unique hunfolds
    have hblank : Json.IsBlank "".toList := Serializer.isBlank_nil
    have hspells := Serializer.spells_text (s := .ofGap H.json.quote space.gap) hlibrary.quote
      hspace.isBlank hblank ht.exchanged
    rw [ht.floats_exchanged] at hspells
    obtain ⟨t', hparse, hfloats⟩ := hlibrary.parse _ _ hspells
    rw [ht.floats_exchanged] at hfloats
    exact ⟨_, _, (Engine.bind_of_ok ((hgives host bound).eq_of_le (by omega))).trans hok, hspells,
      t', hparse, hfloats⟩
  · exact absurd hcircular hv.unfolds.not_circular

end RoundTrip

/-- An object with members whose names are indices, and an array inside. -/
def sampleTree : Json :=
  .object [("b", .array [.number (.natural 1), .string "x\n"]), ("2", .null), ("1", .bool true)]

theorem sampleTree_wellFormed :
    sampleTree.WellFormed (fun x => x.isFinite ∧ x ≠ Number.negZero) Json.maxDepth := by
  have hone : (Float.ofNat 1).isFinite ∧ Float.ofNat 1 ≠ Number.negZero :=
    ⟨by decide +kernel, by decide +kernel⟩
  refine .object (by decide) (List.forall_mem_cons.mpr ⟨.array (by decide)
    (List.forall_mem_cons.mpr ⟨.number hone, List.forall_mem_singleton.mpr (.string _)⟩),
    List.forall_mem_cons.mpr ⟨.null, List.forall_mem_singleton.mpr (.bool true)⟩⟩)

theorem sampleTree_exchanged : sampleTree.exchanged
    = .object [("1", .bool true), ("2", .null),
        ("b", .array [.number (.float (Float.ofNat 1)), .string "x\n"])] := by
  have h2 : PropertyKey.parseIndex? "2" = some 2 := by decide
  have h1 : PropertyKey.parseIndex? "1" = some 1 := by decide
  have hb : PropertyKey.parseIndex? "b" = none := by decide
  have hnull : Json.null.exchanged = .null := rfl
  have hbool : (Json.bool true).exchanged = .bool true := rfl
  have hnumber : (Json.number (.natural 1)).exchanged = .number (.float (Float.ofNat 1)) := rfl
  have hstring : (Json.string "x\n").exchanged = .string "x\n" := rfl
  simp [sampleTree, Json.exchanged_object, Json.exchanged_array, Json.indicesFirst, h1, h2, hb,
    hnull, hbool, hnumber, hstring, List.mergeSort]

/-- The indices come first, and an indentation by two blanks does no harm. -/
theorem stringifyJson_toValue_sampleTree : ∃ text after,
    (do stringifyJson (← sampleTree.toValue) .null (.number 2.0) :
        Engine HostTypes.bare Value).run Host.bare 6 parentRealm = .ok (.string text) after
      ∧ Json.Spells Json.maxDepth text.toList (.object [("1", .bool true), ("2", .null),
          ("b", .array [.number (.float (Float.ofNat 1)), .string "x\n"])])
      ∧ ∃ t, HostTypes.bare.json.parse text = .ok t
        ∧ t.floats = .object [("1", .bool true), ("2", .null),
            ("b", .array [.number (.float (Float.ofNat 1)), .string "x\n"])] := by
  have hlacks : parentRealm.LacksReplacement 0 :=
    ⟨⟨0, Nat.le_refl 0, .missing rfl rfl rfl rfl⟩, ⟨0, Nat.le_refl 0, .missing rfl rfl rfl rfl⟩⟩
  rw [← sampleTree_exchanged]
  exact stringifyJson_toValue Host.bare
    (Json.Library.correct_reading Json.NumberLiteral.isNearest_nearest) sampleTree_wellFormed rfl
    (Value.asksForBlanks_number 2.0) hlacks (by decide) (by decide)

end ScriptEngine
