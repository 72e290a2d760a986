import Appraisal.Proofs.Engine.Checkpoint
import Appraisal.Proofs.Fingerprint

/-!
# Fingerprints of sessions

An exported session whose values or versions are not those of the export any more does not pass its
own check, and two sessions with one fingerprint have the same values and versions. Either fails
only if two different texts have the same hash.
-/

namespace Appraisal

open Digest.Sha256 (Collide)
open Fingerprint (Contents)

namespace EngineState

def contents (s : EngineState) : Contents :=
  ⟨s.assumptions.map fun a => (a.id, a.currentValue), s.formulas.map fun f => (f.id, f.version)⟩

theorem verifyFingerprint_iff (s : EngineState) :
    s.verifyFingerprint = true ↔ s.contents.fingerprint = s.fingerprint :=
  decide_eq_true_iff

end EngineState

namespace Engine

def contents (e : Engine) : Contents :=
  ⟨e.assumptions.pairs, e.formulas.formulas.map fun f => (f.id, f.version)⟩

theorem fingerprint_eq (e : Engine) : e.fingerprint = e.contents.fingerprint := rfl

theorem contents_exportState (e : Engine) (now : Instant) :
    (e.exportState now).contents = e.contents := by
  simp only [exportState, EngineState.contents, contents, List.map_map]
  rfl

theorem Opened.finite_contents {e₀ : Engine} (h₀ : Opened e₀) (calls : List (Instant × Call)) :
    (e₀.afterAll calls).contents.Finite := by
  intro v hv
  obtain ⟨a, ha, rfl⟩ := List.mem_map.1 hv
  exact (Assumption.check_eq_ok_iff.1 ((h₀.sound_afterAll calls).inBounds a ha)).1

/-- The hashed text can be read in one way only, so a fingerprint tells apart what it covers, up to
collisions of the hash function. -/
theorem fingerprint_unambiguous {e₀ : Engine} (h₀ : Opened e₀) (calls : List (Instant × Call))
    (exportedAt : Instant) :
    let e := e₀.afterAll calls
    let exported := e.exportState exportedAt
    (∀ c c' : Contents, c.Finite → (c.message = c'.message ↔ c = c')) ∧
      (∀ s : EngineState, s.fingerprint = exported.fingerprint →
        (s.verifyFingerprint = true ↔
          s.contents = exported.contents ∨ Collide s.contents.message exported.contents.message)) ∧
      ∀ e' : Engine, e'.fingerprint = e.fingerprint ↔
        e'.contents = e.contents ∨ Collide e'.contents.message e.contents.message := by
  intro e exported
  have hfinite : e.contents.Finite := h₀.finite_contents calls
  refine ⟨fun c c' hc => Contents.message_inj hc, ?_, ?_⟩
  · intro s hs
    have hexported : exported.fingerprint = e.contents.fingerprint := e.fingerprint_eq
    have hcontents : exported.contents = e.contents := e.contents_exportState exportedAt
    rw [s.verifyFingerprint_iff, hs, hexported, hcontents]
    exact Contents.fingerprint_eq_fingerprint_iff hfinite
  · intro e'
    rw [e'.fingerprint_eq, e.fingerprint_eq]
    exact Contents.fingerprint_eq_fingerprint_iff hfinite

/-- An export after an update, with the values from before put back into it. -/
theorem fingerprint_unambiguous_of_update :
    let before := new ⟨0, 0⟩
    let e := before.afterAll [(⟨1, 0⟩, .update "analyst_hourly_rate" 120)]
    let altered := { e.exportState ⟨2, 0⟩ with assumptions := before.assumptions.assumptions }
    Opened before ∧ before.contents ≠ e.contents ∧
      (before.fingerprint = e.fingerprint → Collide before.contents.message e.contents.message) ∧
      (altered.verifyFingerprint = true →
        Collide altered.contents.message (e.exportState ⟨2, 0⟩).contents.message) := by
  intro before e altered
  have h₀ : Opened before := .fresh .standard ⟨0, 0⟩
  have hne : before.contents ≠ e.contents := by decide +kernel
  have hne' : altered.contents ≠ (e.exportState ⟨2, 0⟩).contents := by decide +kernel
  obtain ⟨-, hstates, hsessions⟩ := fingerprint_unambiguous h₀
    [(⟨1, 0⟩, .update "analyst_hourly_rate" 120)] ⟨2, 0⟩
  refine ⟨h₀, hne, fun h => ((hsessions before).1 h).resolve_left hne, fun h => ?_⟩
  exact ((hstates altered rfl).1 h).resolve_left hne'

end Engine

end Appraisal
