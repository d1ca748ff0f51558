/-!
# Where reports go

Errors that are worth a report go to a reporter together with the name of the component that met
them. A report never changes what the component does next. So a reporter is only a name here, and it is
taken to be passive: it neither breaks off nor calls back into the component that reports to it.
-/

namespace IntentLoop

inductive Reporter where
  /-- Into the program's own log. -/
  | log
  | sink (name : String)
  deriving DecidableEq

end IntentLoop
