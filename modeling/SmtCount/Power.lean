/-!
# Powers

Powers of natural numbers and of integers are those of the core library, also beside libraries that know
powers in every monoid.
-/

attribute [instance (2000), default_instance 20000] instPowNat
