import SourceStamp.Config
import SourceStamp.Stamp.Pass

/-! A compiler that runs the stamper as one of its plugins. -/

set_option autoImplicit false

namespace SourceStamp

structure Host where
  config : Option String
  cwd : Option String
  sourceMap : Option SourceMap

namespace Host

-- Outside of a compiler nothing is configured, and the source map is there but cannot be asked.
def absent : Host := ⟨none, none, some .offline⟩

/-- The stamper under a configuration. Paths are relative to the configured directory, or else to
the working directory. -/
def stamper (host : Host) (config : Config) : Stamper :=
  ⟨host.sourceMap, config.baseDir <|> host.cwd, config.debugCallee⟩

def process (host : Host) (program : Node) : Except LookupError Report := do
  let (config, events) := Config.load host.config
  let report ← (host.stamper config).run false program
  return ⟨report.program, events ++ report.events, report.diagnostics⟩

end Host

end SourceStamp
