import MotorSketch.Proofs.Compilation.Append

/-!
# Merged parts

Parts of a sketch are merged by writing one over the other.  In each buffer a key stays where it
first came and has the code that came last, so merging is associative, a piece that is merged twice
counts once, and it does not matter how the pieces of a sketch are grouped.  The parts of a compiled
sketch are merged from what each visited block writes on its own.

    (f.overlay g).overlay h = f.overlay (g.overlay h)                             (overlay_assoc)
    (f.overlay g).overlay g = f.overlay g                                  (overlay_overlay_self)
    t.merged = t.pieces.foldl Parts.overlay .empty                             (merged_eq_foldl)
    (addBlock board b c).value.parts = c.parts.overlay (emitted board b)        (overlay_emitted)
-/

namespace MotorSketch

namespace Sketch

/-! ## Laws -/

namespace Parts

theorem overlay_assoc (f g h : Parts) : (f.overlay g).overlay h = f.overlay (g.overlay h) := by
  simp only [overlay, OrderedMap.overlay_assoc]

theorem empty_overlay (f : Parts) : empty.overlay f = f := by
  simp only [overlay, empty, OrderedMap.empty_overlay]

theorem overlay_empty (f : Parts) : f.overlay empty = f := by
  simp only [overlay, empty, OrderedMap.overlay_empty]

theorem overlay_self (f : Parts) : f.overlay f = f := by
  simp only [overlay, OrderedMap.overlay_self]

theorem overlay_overlay_self (f g : Parts) : (f.overlay g).overlay g = f.overlay g := by
  rw [overlay_assoc, overlay_self]

theorem isEmpty_overlay (f g : Parts) :
    (f.overlay g).isEmpty = true ↔ f.isEmpty = true ∧ g.isEmpty = true := by
  simp only [isEmpty, overlay, OrderedMap.isEmpty_overlay, Bool.and_eq_true]
  constructor
  · rintro ⟨⟨⟨hfd, hgd⟩, hfs, hgs⟩, hfb, hgb⟩
    exact ⟨⟨⟨hfd, hfs⟩, hfb⟩, ⟨hgd, hgs⟩, hgb⟩
  · rintro ⟨⟨⟨hfd, hfs⟩, hfb⟩, ⟨hgd, hgs⟩, hgb⟩
    exact ⟨⟨⟨hfd, hgd⟩, hfs, hgs⟩, hfb, hgb⟩

/-- Each buffer of merged parts is merged from the buffers. -/
theorem buffer_overlay {buffer : Parts → OrderedMap String String}
    (h : buffer ∈ [definitions, setups, body]) (f g : Parts) :
    buffer (f.overlay g) = (buffer f).overlay (buffer g) := by
  simp only [List.mem_cons, List.not_mem_nil, or_false] at h
  rcases h with rfl | rfl | rfl <;> rfl

end Parts

/-! ## Groups of pieces -/

/-- A way to merge pieces: no piece, one piece, or the second group over the first. -/
inductive Grouping
  | nothing
  | piece (p : Parts)
  | join (first second : Grouping)

namespace Grouping

/-- The pieces in the order in which they are merged. -/
def pieces : Grouping → List Parts
  | nothing => []
  | piece p => [p]
  | join first second => first.pieces ++ second.pieces

def merged : Grouping → Parts
  | nothing => .empty
  | piece p => p
  | join first second => first.merged.overlay second.merged

/-- Merging a whole group at once is merging its pieces one after the other. -/
theorem overlay_merged (p : Parts) (t : Grouping) :
    p.overlay t.merged = t.pieces.foldl Parts.overlay p := by
  induction t generalizing p with
  | nothing => exact p.overlay_empty
  | piece q => rfl
  | join first second ihFirst ihSecond =>
    rw [merged, pieces, List.foldl_append, ← ihFirst, ← ihSecond, Parts.overlay_assoc]

theorem merged_eq_foldl (t : Grouping) : t.merged = t.pieces.foldl Parts.overlay .empty := by
  rw [← overlay_merged, Parts.empty_overlay]

end Grouping

end Sketch

/-! ## Compiled sketches -/

namespace Compilation

/-- What the block writes on its own. -/
def emitted (board : Board) (b : Block) : Sketch.Parts :=
  (addBlock board b (start .empty)).value.parts

theorem overlay_emitted (board : Board) (b : Block) (c : Compilation) :
    (addBlock board b c).value.parts = c.parts.overlay (emitted board b) := by
  have hempty : ∀ es : List (String × String), (∅ : OrderedMap String String).insertAll es =
      OrderedMap.ofList es := fun _ => rfl
  rw [emitted, parts_addBlock, parts_addBlock, Sketch.Parts.overlay]
  simp only [start, Sketch.Parts.empty, hempty, OrderedMap.overlay_ofList]

/-- The parts of a run are merged from what the visited blocks write, block by block. -/
theorem parts_run_eq_foldl (board : Board) (pins : PinAssignment) (w : Workspace) :
    (run board pins w).parts =
      (w.visited.map (emitted board)).foldl Sketch.Parts.overlay .empty := by
  rw [run, List.foldl_map]
  exact (List.foldl_hom Compilation.parts fun c b => (overlay_emitted board b c).symm).symm

/-- The laws of merging.  It is associative, the empty parts are neutral, a piece that is merged
again changes nothing, and nothing is lost; in each buffer the keys of the first parts keep their
places, the further keys of the second follow in their order, and every key of the second has its
code.  So pieces that are merged in one order give the same parts however they are grouped, and the
parts of a compiled sketch are merged from what its visited blocks write in any grouping. -/
theorem parts_merged (f g h : Sketch.Parts) :
    (f.overlay g).overlay h = f.overlay (g.overlay h) ∧
      (Sketch.Parts.empty.overlay f = f ∧ f.overlay .empty = f) ∧
      (f.overlay f = f ∧ (f.overlay g).overlay g = f.overlay g) ∧
      ((f.overlay g).isEmpty = true ↔ f.isEmpty = true ∧ g.isEmpty = true) ∧
      (∀ buffer ∈ [Sketch.Parts.definitions, Sketch.Parts.setups, Sketch.Parts.body],
        (buffer (f.overlay g)).keys =
            (buffer f).keys ++ (buffer g).keys.filter (· ∉ (buffer f).keys) ∧
          ∀ k, (buffer (f.overlay g)).get? k = ((buffer g).get? k).or ((buffer f).get? k)) ∧
      (∀ s t : Sketch.Grouping, s.pieces = t.pieces → s.merged = t.merged) ∧
      ∀ (board : Board) (pins : PinAssignment) (w : Workspace) (t : Sketch.Grouping),
        t.pieces = w.visited.map (emitted board) →
          (ofWorkspace board pins w).value.parts = t.merged := by
  refine ⟨f.overlay_assoc g h, ⟨f.empty_overlay, f.overlay_empty⟩,
    ⟨f.overlay_self, f.overlay_overlay_self g⟩, f.isEmpty_overlay g, ?_, ?_, ?_⟩
  · intro buffer hbuffer
    rw [Sketch.Parts.buffer_overlay hbuffer]
    exact ⟨OrderedMap.keys_overlay _ _, OrderedMap.get?_overlay _ _⟩
  · intro s t hpieces
    rw [s.merged_eq_foldl, t.merged_eq_foldl, hpieces]
  · intro board pins w t hpieces
    rw [t.merged_eq_foldl, hpieces, ← parts_run_eq_foldl board pins w, value_eq_run]
    rfl

end Compilation

end MotorSketch
