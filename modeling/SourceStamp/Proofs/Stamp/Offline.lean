import SourceStamp.Host
import SourceStamp.Proofs.Stamp.Texts

/-! Stamping without a compiler around it. The source map is there but cannot be asked, so the result
depends on whether it is. It is asked for the place of an outermost target and for the text of what a
`$debug` call shows, and only if these stand in the source.
-/

set_option autoImplicit false

namespace SourceStamp

namespace Stamper

variable {stamper : Stamper} (offline : stamper.sourceMap = some .offline)
include offline

theorem textOf_offline {node : Node} (written : node.IsWritten) :
    stamper.textOf node = .error .offline := by
  unfold textOf
  cases place : node.span.isDummy with
  | false =>
    rw [tag_of_asked offline place]
    rfl
  | true =>
    obtain place' | ⟨subject, found, shown⟩ := written
    · rw [place] at place'
      contradiction
    · rw [tag_of_isDummy place, found]
      dsimp only
      unfold sourceText
      rw [snippet?_of_asked offline shown]
      rfl

end Stamper

namespace Host

open Stamper

theorem process_absent_eq_run (program : Node) :
    absent.process program = (absent.stamper .defaults).run false program := by
  show ((absent.stamper .defaults).run false program >>= fun report => pure report) = _
  exact bind_pure _

/-- Without a compiler, stamping fails exactly if an outermost target stands in the source, or is a
`$debug` call whose first argument does. In all other cases the result is that of a pass without a
source map, without a base directory and with the standard callee. -/
theorem process_absent (program : Node) :
    (absent.process program = .error .offline ↔
      ∃ address old, program.OutermostTarget address old ∧ (old.span.isDummy = false ∨
        ∃ subject, old.subject? = some subject ∧ subject.span.isDummy = false)) ∧
    (absent.process program ≠ .error .offline → ∃ report, absent.process program = .ok report ∧
      (Stamper.mk none none "debugPrint").run false program = .ok report) := by
  have offline : (absent.stamper .defaults).sourceMap = some .offline := rfl
  obtain ⟨fails, works⟩ := run_eq_error_iff_of_textOf (P := Node.IsWritten) program
    (fun _ _ _ written => textOf_offline offline written)
    (fun _ _ _ made => (exists_textOf_of_not_isWritten made).imp fun _ known => known _) false
  rw [process_absent_eq_run]
  refine ⟨fails, fun silent => ?_⟩
  obtain ⟨report, result⟩ := works silent
  obtain ⟨new, events, passed, same⟩ := run_eq_ok_iff.1 result
  refine ⟨report, result, run_eq_ok_iff.2 ⟨new, events, ?_, same⟩⟩
  apply pass_congr _ _ passed
  · rfl
  · intro address old outermost
    have made : ¬ old.IsWritten := fun written => silent (fails.2 ⟨address, old, outermost, written⟩)
    obtain ⟨text, known⟩ := exists_textOf_of_not_isWritten made
    rw [known, known]

-- The call itself is made up, what it shows is not.
example : (absent.process (.call ⟨.dummy, 0, .ident ⟨.dummy, 0, "$debug", false⟩,
    [⟨none, .ident ⟨⟨7, 8⟩, 0, "x", false⟩⟩], none⟩)).toOption.isNone := by decide

end Host

end SourceStamp
