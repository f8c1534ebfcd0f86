/-!
# Powers

A power of a natural number or of an integer is the core library's own in every module, whichever other
instances the module sees.
-/

attribute [instance (default + 1), default_instance (high + 1)] instPowNat
