/-!
# Class targets

A class target names a class and the methods of it whose bodies a rule looks
at.  Methods are given as identifiers.
-/

namespace CallRedirect

/-- A class and identifiers of methods in it. -/
structure ClassTarget where
  className : String
  methods : List String
  deriving DecidableEq, Repr, Inhabited

end CallRedirect
