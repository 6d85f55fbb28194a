/-
  WebBaseline.Script.Grammar

  The grammar of scripts, with types and with markup. The two dialects differ
  in what an angle bracket opens where a value is expected: a tag, or a type
  to take the value as.
-/

import WebBaseline.Script.Grammar.Functions
import WebBaseline.Script.Grammar.Statements
import WebBaseline.Script.Grammar.Tags
import WebBaseline.Script.Grammar.Types
import WebBaseline.Script.Grammar.Values

namespace WebBaseline.Script

open WebBaseline.Syntax

namespace Grammar

/-! ## The rules by phrase -/

/-- The rule of each phrase in a dialect. -/
def rules (d : Dialect) : Phrase → R
  | .script => scriptRule
  | .statement => statementRule
  | .block => blockRule
  | .statementEnd => statementEndRule
  | .valueEnd => valueEndRule
  | .exported => exportedRule
  | .imported => importedRule
  | .importClause => importClauseRule
  | .variables => variablesRule
  | .declarator => declaratorRule
  | .functionDeclaration => functionDeclarationRule
  | .classDeclaration => classDeclarationRule
  | .typeAlias => typeAliasRule
  | .interfaceDeclaration => interfaceRule
  | .enumeration => enumerationRule
  | .moduleBlock => moduleBlockRule
  | .ambient => ambientRule
  | .declaration => declarationRule
  | .conditionalStatement => conditionalRule
  | .whileLoop => whileRule
  | .doLoop => doRule
  | .forLoop => forRule
  | .forHead => forHeadRule
  | .switchStatement => switchRule
  | .tryStatement => tryRule
  | .jump => jumpRule
  | .labelled => labelledRule
  | .expressions => expressionsRule
  | .expression => expressionRule
  | .term => termRule
  | .arrow => arrowRule
  | .assignment => assignmentRule
  | .unary => unaryRule d
  | .access => accessRule
  | .primary => primaryRule d
  | .construction => constructionRule
  | .constructed => constructedRule
  | .group => groupRule
  | .arguments => argumentsRule
  | .arrayLiteral => arrayRule
  | .objectLiteral => objectRule
  | .objectMember => objectMemberRule
  | .template => templateRule
  | .functionExpression => functionExpressionRule
  | .classExpression => classExpressionRule
  | .argument => argumentRule
  | .pattern => patternRule
  | .objectPattern => objectPatternRule
  | .arrayPattern => arrayPatternRule
  | .bindingTarget => bindingTargetRule
  | .patternElement => patternElementRule
  | .signature => signatureRule
  | .parameters => parametersRule
  | .parameter => parameterRule
  | .initializer => initializerRule
  | .heritage => heritageRule
  | .classBody => classBodyRule
  | .classMember => classMemberRule
  | .decorator => decoratorRule
  | .propertyName => propertyNameRule
  | .modifiers => modifiersRule
  | .typeClause => typeClauseRule
  | .returnClause => returnClauseRule
  | .returnType => returnTypeRule
  | .type => typeRule
  | .unionType => unionTypeRule
  | .intersectionType => intersectionTypeRule
  | .prefixedType => prefixedTypeRule
  | .suffixedType => suffixedTypeRule
  | .primaryType => primaryTypeRule
  | .functionType => functionTypeRule
  | .typeQuery => typeQueryRule
  | .objectType => objectTypeRule
  | .objectTypeMember => objectTypeMemberRule
  | .tupleMember => tupleMemberRule
  | .typeArguments => typeArgumentsRule
  | .typeParameters => typeParametersRule
  | .typeParameter => typeParameterRule
  | .templateType => templateTypeRule
  | .typeName => typeNameRule
  | .element => elementRule
  | .tagHead => tagHeadRule
  | .tagName => tagNameRule
  | .attribute => attributeRule
  | .tagContent => tagContentRule
  | .embedded => embeddedRule

end Grammar

/-- The grammar of scripts in a dialect. -/
def grammar (d : Dialect) : Grammar Phrase Kind where
  rules := Grammar.rules d
  isBlank := isBlank
  remark := remark
  remarkKind := .remark

/-- The tree of a script, if the whole text follows the grammar. -/
def parse? (d : Dialect) (src : Source) : Option (ParseTree Kind) :=
  ((grammar d).read? src.chars .script).map Prod.fst

end WebBaseline.Script
