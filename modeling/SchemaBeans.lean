import SchemaBeans.BuildScript
import SchemaBeans.Main
import SchemaBeans.Proofs.Acceptance
import SchemaBeans.Proofs.Independence
import SchemaBeans.Proofs.Outcomes
import SchemaBeans.Proofs.TypeNames
import SchemaBeans.Proofs.ReferenceChecks
import SchemaBeans.Proofs.Declarations
import SchemaBeans.Proofs.Header
import SchemaBeans.Proofs.CommentExtent
import SchemaBeans.Proofs.Rerunning
import SchemaBeans.Proofs.TypeTexts
import SchemaBeans.Proofs.Validity
import SchemaBeans.Proofs.Referable
import SchemaBeans.Proofs.Methods
import SchemaBeans.Proofs.Tables
import SchemaBeans.Proofs.PropertyForms
import SchemaBeans.Proofs.TidySources
import SchemaBeans.Proofs.AcceptedDocuments
import SchemaBeans.Proofs.SavedConfigurations
import SchemaBeans.Proofs.ModelTexts
import SchemaBeans.Proofs.OneWorker
import SchemaBeans.Proofs.TypeGrammar
import SchemaBeans.Proofs.Issues
import SchemaBeans.Proofs.TypeMapping
import SchemaBeans.Proofs.Candidates
import SchemaBeans.Proofs.Collisions
import SchemaBeans.Proofs.CommentBlocks
import SchemaBeans.Proofs.Staging
import SchemaBeans.Proofs.CleanedLines
import SchemaBeans.Proofs.Segments
import SchemaBeans.Proofs.ProjectRoots
import SchemaBeans.Proofs.ResolvedSettings
