import LocaleKeys.Text.Basic

/-!
# Where records come from

The names that the parts of the program have in a log file.
-/

namespace LocaleKeys

namespace Source

def commandLine : Text := "rntranslationgen.interface.cli.app"

def optionFile : Text := "rntranslationgen.domain.config"

def run : Text := "rntranslationgen.core.pipeline.engine"

def preparation : Text := "rntranslationgen.core.pipeline.stages.setup"

def writing : Text := "rntranslationgen.core.pipeline.components.writer"

def document : Text := "rntranslationgen.core.analysis.tree_loader"

def formatting : Text := "rntranslationgen.core.services.formatter"

def verification : Text := "rntranslationgen.core.services.verifier"

end Source

end LocaleKeys
