import Mos6502.Configuration.Basic

/-!
# Layers of a configuration

Merging is associative and the configuration that sets nothing is neutral on both sides, so it does not matter how layers
are grouped, only in which order they come (`Grouping.merged_eq_ofLayers`).  An option has the value that the last layer
gives it that sets it (`IsOption.merged`).  This holds of the options of the display one by one, while the presets are one
option: a layer with presets hides all those of the layers below it.
-/

namespace Mos6502

variable {α : Type}

/-! ### Merging -/

namespace DisplayOptions

theorem merge_assoc (a b c : DisplayOptions) : (a.merge b).merge c = a.merge (b.merge c) := by
  simp only [merge, Option.or_assoc]

instance : Std.Associative merge :=
  ⟨merge_assoc⟩

end DisplayOptions

namespace Configuration

theorem merge_assoc (a b c : Configuration) : (a.merge b).merge c = a.merge (b.merge c) := by
  have hdisplay : ∀ x y z : Option DisplayOptions,
      Option.merge DisplayOptions.merge (Option.merge DisplayOptions.merge x y) z =
        Option.merge DisplayOptions.merge x (Option.merge DisplayOptions.merge y z) :=
    Std.Associative.assoc
  simp only [merge, Option.or_assoc, hdisplay]

theorem empty_merge (a : Configuration) : empty.merge a = a := by
  simp [merge, empty]

theorem merge_empty (a : Configuration) : a.merge empty = a := by
  simp [merge, empty]

instance : Std.Associative merge :=
  ⟨merge_assoc⟩

/-! ### Groups of layers -/

/-- Layers that are merged in their order, one group with the next. -/
inductive Grouping where
  | nothing
  | layer (c : Configuration)
  | both (lower upper : Grouping)

namespace Grouping

/-- The layers from the lowest to the highest. -/
def layers : Grouping → List Configuration
  | nothing => []
  | layer c => [c]
  | both lower upper => lower.layers ++ upper.layers

/-- The layers in one configuration, each group merged on its own. -/
def merged : Grouping → Configuration
  | nothing => .empty
  | layer c => c
  | both lower upper => lower.merged.merge upper.merged

end Grouping

theorem ofLayers_eq_foldl (layers : List Configuration) : ofLayers layers = layers.foldl merge empty := by
  cases layers with
  | nil => rfl
  | cons lowest others => rw [List.foldl_cons, empty_merge, ofLayers]

theorem ofLayers_append (layers layers' : List Configuration) :
    ofLayers (layers ++ layers') = (ofLayers layers).merge (ofLayers layers') := by
  have hassoc : layers'.foldl merge ((ofLayers layers).merge empty) =
      (ofLayers layers).merge (layers'.foldl merge empty) := List.foldl_assoc
  rw [merge_empty] at hassoc
  rw [ofLayers_eq_foldl (layers ++ layers'), List.foldl_append, ← ofLayers_eq_foldl, hassoc, ← ofLayers_eq_foldl]

theorem Grouping.merged_eq_ofLayers (g : Grouping) : g.merged = ofLayers g.layers := by
  induction g with
  | nothing => rfl
  | layer c => rfl
  | both lower upper ihlower ihupper => rw [merged, layers, ofLayers_append, ihlower, ihupper]

/-! ### Options -/

/-- The value of an option in the last layer that sets it. -/
def lastSet (option : Configuration → Option α) (layers : List Configuration) : Option α :=
  (layers.filterMap option).getLast?

/-- A part of a configuration that a layer hides in the layers below it exactly if it sets it. -/
structure IsOption (option : Configuration → Option α) : Prop where
  empty : option .empty = none
  merge (lower upper : Configuration) : option (lower.merge upper) = (option upper).or (option lower)

theorem lastSet_append (option : Configuration → Option α) (layers layers' : List Configuration) :
    lastSet option (layers ++ layers') = (lastSet option layers').or (lastSet option layers) := by
  unfold lastSet
  rw [List.filterMap_append, List.getLast?_append]

theorem lastSet_singleton (option : Configuration → Option α) (c : Configuration) : lastSet option [c] = option c := by
  unfold lastSet
  cases h : option c <;> simp [h]

theorem IsOption.merged {option : Configuration → Option α} (h : IsOption option) (g : Grouping) :
    option g.merged = lastSet option g.layers := by
  induction g with
  | nothing => exact h.empty
  | layer c => exact (lastSet_singleton option c).symm
  | both lower upper ihlower ihupper =>
    rw [Grouping.merged, Grouping.layers, h.merge, lastSet_append, ihlower, ihupper]

/-- An option of the display is one of the configuration: a layer without options for the display sets none of them. -/
theorem isOption_display {part : DisplayOptions → Option α}
    (h : ∀ lower upper : DisplayOptions, part (lower.merge upper) = (part upper).or (part lower)) :
    IsOption fun c => c.display.bind part where
  empty := rfl
  merge lower upper := by
    show (Option.merge DisplayOptions.merge lower.display upper.display).bind part = _
    cases lower.display with
    | none => simp
    | some below =>
      cases upper.display with
      | none => simp
      | some above => exact h below above

/-- Each option has the value that the last of some layers gives it that sets it. -/
structure TakesLast (c : Configuration) (layers : List Configuration) : Prop where
  mode : c.mode = lastSet (·.mode) layers
  frequency : c.frequency = lastSet (·.frequency) layers
  diagnostics : c.diagnostics = lastSet (·.diagnostics) layers
  loadAddress : c.loadAddress = lastSet (·.loadAddress) layers
  popPolicy : c.popPolicy = lastSet (·.popPolicy) layers
  randomAddress : c.randomAddress = lastSet (·.randomAddress) layers
  presets : c.presets = lastSet (·.presets) layers
  enabled : c.display.bind (·.enabled) = lastSet (·.display.bind (·.enabled)) layers
  scale : c.display.bind (·.scale) = lastSet (·.display.bind (·.scale)) layers
  intensity : c.display.bind (·.intensity) = lastSet (·.display.bind (·.intensity)) layers
  framesPerSecond : c.display.bind (·.framesPerSecond) = lastSet (·.display.bind (·.framesPerSecond)) layers

theorem takesLast_merged (g : Grouping) : TakesLast g.merged g.layers where
  mode := IsOption.merged ⟨rfl, fun _ _ => rfl⟩ g
  frequency := IsOption.merged ⟨rfl, fun _ _ => rfl⟩ g
  diagnostics := IsOption.merged ⟨rfl, fun _ _ => rfl⟩ g
  loadAddress := IsOption.merged ⟨rfl, fun _ _ => rfl⟩ g
  popPolicy := IsOption.merged ⟨rfl, fun _ _ => rfl⟩ g
  randomAddress := IsOption.merged ⟨rfl, fun _ _ => rfl⟩ g
  presets := IsOption.merged ⟨rfl, fun _ _ => rfl⟩ g
  enabled := (isOption_display fun _ _ => rfl).merged g
  scale := (isOption_display fun _ _ => rfl).merged g
  intensity := (isOption_display fun _ _ => rfl).merged g
  framesPerSecond := (isOption_display fun _ _ => rfl).merged g

/-- Layers can be grouped in any way: all groupings of the same layers are the same configuration, and in it each option
has the value that the last layer gives it that sets it. -/
theorem layers_merged (a b c : Configuration) (g : Grouping) :
    (a.merge b).merge c = a.merge (b.merge c) ∧ empty.merge a = a ∧ a.merge empty = a ∧
      g.merged = ofLayers g.layers ∧ TakesLast g.merged g.layers :=
  ⟨merge_assoc a b c, empty_merge a, merge_empty a, g.merged_eq_ofLayers, takesLast_merged g⟩

-- a layer that only enables the display keeps the scale of the layer below it
example :
    let file : Configuration := { empty with display := some { DisplayOptions.empty with scale := some 4 } }
    let flags : Configuration := { empty with display := some { DisplayOptions.empty with enabled := some true } }
    (file.merge flags).effectiveDisplay = { DisplayOptions.empty with enabled := some true, scale := some 4 } := rfl

end Configuration

end Mos6502
