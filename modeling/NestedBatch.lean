import NestedBatch.Machine.Script
import NestedBatch.Main
import NestedBatch.Proofs.CommandLine.Context
import NestedBatch.Proofs.CommandLine.Finite
import NestedBatch.Proofs.CommandLine.Refusal
import NestedBatch.Proofs.Context.Canonical
import NestedBatch.Proofs.Context.Edits
import NestedBatch.Proofs.Interleaving.Admission
import NestedBatch.Proofs.Interleaving.Succession
import NestedBatch.Proofs.Job.Variables
import NestedBatch.Proofs.Launch.Closing
import NestedBatch.Proofs.Launch.Identity
import NestedBatch.Proofs.Launch.Independence
import NestedBatch.Proofs.Launch.Release
import NestedBatch.Proofs.Parameter.Assignment
import NestedBatch.Proofs.Parameter.KeySpec
import NestedBatch.Proofs.Repository.Links
import NestedBatch.Proofs.Repository.Opening
import NestedBatch.Proofs.Repository.Refusal
import NestedBatch.Proofs.Runner.Closing
import NestedBatch.Proofs.Runner.Correlation
import NestedBatch.Proofs.Step.Resolution
